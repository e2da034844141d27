import Xemu.Dsp.Arith56

/-! # Shifts and the fractional multiply of the 56-bit accumulator

    Model of `dsp_asl56`, `dsp_asr56` and `dsp_mul56` of
    `hw/xbox/mcpx/apu/dsp/dsp_cpu.c`.  The shifts reassemble the three
    limbs into a `uint64_t`, shift it, and split it back; the multiply
    forms the product of the two 24-bit magnitudes from four 12 × 12-bit
    partial products, doubles it with `dsp_asl56(dest, 1)` (the fractional
    format has one sign bit less than the product of two fractions) and
    negates it through `dsp_sub56` when the signs differ.

    The results:
    * `dsp_asl56` leaves `(D << n) mod 2^56` and returns the last bit
      shifted out as `C`; its `V` compares bit 55 before and after the
      whole shift, and its `L` is set when any of the top `n` bits is set;
    * `dsp_asr56` leaves `D >> n` of the unsigned 56-bit value, with `C`
      the last bit shifted out: an arithmetic shift for a non-negative
      accumulator only, since the top bits are filled with zeros;
    * `dsp_mul56` leaves the exact two's-complement encoding of
      `± 2 · s1 · s2`, the corner `s1 = s2 = 0x800000` included.
-/

namespace Xemu.Dsp

open Xemu.Word

/-! ## Section 1: The limbs as one `uint64_t` -/

/-- `dest[2] | ((uint64_t)dest[1] << 24) | ((uint64_t)dest[0] << 48)` -/
def Acc56.pack (a : Acc56) : UInt64 :=
  a.w2.toUInt64 ||| (a.w1.toUInt64 <<< 24) ||| (a.w0.toUInt64 <<< 48)

/-- `dest[2] = v & BITMASK(24); dest[1] = (v >> 24) & BITMASK(24);
    dest[0] = (v >> 48) & BITMASK(8);` -/
def Acc56.unpack (v : UInt64) : Acc56 :=
  ⟨((v >>> 48) &&& 0xFF).toUInt32, ((v >>> 24) &&& 0xFFFFFF).toUInt32, (v &&& 0xFFFFFF).toUInt32⟩

/-- Three 0/1 words packed as the condition-code word of a helper:
    `(l << DSP_SR_L) | (v << DSP_SR_V) | (c << DSP_SR_C)`. -/
def srBits (l v c : Bool) : UInt16 :=
  (if l then 1 <<< dspSrL else 0) ||| (if v then 1 <<< dspSrV else 0) |||
    (if c then 1 <<< dspSrC else 0)

theorem Acc56.pack_toNat {a : Acc56} (h : a.Valid) : a.pack.toNat = a.val := by
  obtain ⟨h0, h1, h2⟩ := h
  have e1 : (a.w1.toUInt64 <<< 24).toNat = a.w1.toNat * 2 ^ 24 := by
    rw [show (24 : UInt64) = UInt64.ofNat 24 from rfl,
      toNat_shiftLeft64 _ _ (by norm_num) (by rw [UInt32.toNat_toUInt64]; omega),
      UInt32.toNat_toUInt64]
  have e0 : (a.w0.toUInt64 <<< 48).toNat = a.w0.toNat * 2 ^ 48 := by
    rw [show (48 : UInt64) = UInt64.ofNat 48 from rfl,
      toNat_shiftLeft64 _ _ (by norm_num) (by rw [UInt32.toNat_toUInt64]; omega),
      UInt32.toNat_toUInt64]
  -- the three limbs occupy disjoint bit ranges, so each `|` is a sum
  have o1 : a.w2.toNat ||| a.w1.toNat * 2 ^ 24 = a.w1.toNat * 2 ^ 24 + a.w2.toNat := by
    rw [Nat.lor_comm, Nat.mul_comm, ← Nat.two_pow_add_eq_or_of_lt h2]
  have o0 : (a.w1.toNat * 2 ^ 24 + a.w2.toNat) ||| a.w0.toNat * 2 ^ 48 =
      a.w0.toNat * 2 ^ 48 + (a.w1.toNat * 2 ^ 24 + a.w2.toNat) := by
    rw [Nat.lor_comm, Nat.mul_comm, ← Nat.two_pow_add_eq_or_of_lt (by omega)]
  rw [Acc56.pack, UInt64.toNat_or, UInt64.toNat_or, e1, e0, UInt32.toNat_toUInt64, o1, o0,
    Acc56.val]
  omega

@[simp] theorem Acc56.unpack_valid (v : UInt64) : (Acc56.unpack v).Valid := by
  refine ⟨?_, ?_, ?_⟩ <;> simp only [Acc56.unpack, UInt64.toNat_toUInt32] <;>
    apply Nat.lt_of_le_of_lt (Nat.mod_le _ _)
  · exact (UInt64.toNat_and _ _ ▸ Nat.and_le_right).trans_lt (by decide)
  · exact (UInt64.toNat_and _ _ ▸ Nat.and_le_right).trans_lt (by decide)
  · exact (UInt64.toNat_and _ _ ▸ Nat.and_le_right).trans_lt (by decide)

theorem Acc56.unpack_val (v : UInt64) : (Acc56.unpack v).val = v.toNat % 2 ^ 56 := by
  have m8 : (0xFF : UInt64) = UInt64.ofNat (2 ^ 8 - 1) := rfl
  have m24 : (0xFFFFFF : UInt64) = UInt64.ofNat (2 ^ 24 - 1) := rfl
  have s48 : (48 : UInt64) = UInt64.ofNat 48 := rfl
  have s24 : (24 : UInt64) = UInt64.ofNat 24 := rfl
  simp only [Acc56.unpack, Acc56.val, UInt64.toNat_toUInt32, m8, m24, s48, s24,
    toNat_and_lowMask64 _ _ (by norm_num : 8 ≤ 64), toNat_and_lowMask64 _ _ (by norm_num : 24 ≤ 64),
    toNat_shiftRight64 _ _ (by norm_num : 48 < 64), toNat_shiftRight64 _ _ (by norm_num : 24 < 64)]
  omega

/-! ## Section 2: The shifts, as `dsp_cpu.c` writes them

    A shift count is an `int`; the callers pass 1 or the six-bit field of
    `ASL #ii` / `ASR #ii`.  The model reads it as a `Nat` and the shift
    amounts `56 - n` and `n` as `uint64_t` shift counts; a count above 56
    (undefined in C) is not considered. -/

/-- `dsp_asl56(dest, n)`: `D <<= n`; returns `L`, `V` and `C`. -/
def dspAsl56 (dest : Acc56) (n : Nat) : Acc56 × UInt16 :=
  let destV := dest.pack
  let carry : UInt16 := ((destV >>> UInt64.ofNat (56 - n)) &&& 1).toUInt16
  let destS := destV <<< UInt64.ofNat n
  let overflow : UInt16 := if destV >>> UInt64.ofNat (56 - n) ≠ 0 then 1 else 0
  let v : UInt16 :=
    if (destV >>> (55 : UInt64)) &&& (1 : UInt64) ≠ (destS >>> (55 : UInt64)) &&& 1 then 1 else 0
  (Acc56.unpack destS, (overflow <<< dspSrL) ||| (v <<< dspSrV) ||| (carry <<< dspSrC))

/-- `dsp_asr56(dest, n)`: `D >>= n` on the `uint64_t`; returns `C`. -/
def dspAsr56 (dest : Acc56) (n : Nat) : Acc56 × UInt16 :=
  let destV := dest.pack
  let carry : UInt16 := ((destV >>> UInt64.ofNat (n - 1)) &&& 1).toUInt16
  (Acc56.unpack (destV >>> UInt64.ofNat n), carry <<< dspSrC)

/-! ## Section 3: What the shifts compute -/

/-- The packed flag word of the shifts, read back as booleans. -/
theorem pack_srBits (l v c : Prop) [Decidable l] [Decidable v] [Decidable c] :
    ((if l then 1 else 0 : UInt16) <<< dspSrL) ||| ((if v then 1 else 0 : UInt16) <<< dspSrV) |||
        ((if c then 1 else 0 : UInt16) <<< dspSrC) = srBits (decide l) (decide v) (decide c) := by
  by_cases hl : l <;> by_cases hv : v <;> by_cases hc : c <;>
    simp only [hl, hv, hc, if_true, if_false, decide_true, decide_false] <;> decide

section shifts

variable {d : Acc56}

/-- Bit `k` of the 56-bit value, read as `(v >> k) & 1` from the packed word. -/
theorem pack_bit (hd : d.Valid) (k : Nat) (hk : k < 64) :
    ((d.pack >>> UInt64.ofNat k) &&& 1).toUInt16 = if d.val / 2 ^ k % 2 = 1 then 1 else 0 := by
  apply flag_eq_ite
  have hone : (1 : UInt64) = UInt64.ofNat (2 ^ 1 - 1) := rfl
  rw [UInt64.toNat_toUInt16, hone, toNat_and_lowMask64 _ _ (by norm_num),
    toNat_shiftRight64 _ _ hk, Acc56.pack_toNat hd]
  split_ifs <;> omega

/-- `dsp_asl56` leaves `(D << n) mod 2^56`. -/
theorem dspAsl56_val (hd : d.Valid) (n : Nat) (hn : n < 64) :
    (dspAsl56 d n).1.Valid ∧ (dspAsl56 d n).1.val = d.val * 2 ^ n % 2 ^ 56 := by
  refine ⟨Acc56.unpack_valid _, ?_⟩
  show (Acc56.unpack (d.pack <<< UInt64.ofNat n)).val = _
  rw [Acc56.unpack_val, toNat_shiftLeft64_mod _ _ hn, Acc56.pack_toNat hd,
    Nat.mod_mod_of_dvd _ (by norm_num : 2 ^ 56 ∣ 2 ^ 64)]

/-- The flags of `dsp_asl56`: `L` when any of the top `n` bits is set, `V`
    when bit 55 differs before and after the shift, `C` the last bit
    shifted out, bit `56 - n`. -/
theorem dspAsl56_ccr (hd : d.Valid) (n : Nat) (hn : n ≤ 56) :
    (dspAsl56 d n).2 = srBits (d.val / 2 ^ (56 - n) ≠ 0)
      (d.val / 2 ^ 55 % 2 ≠ (dspAsl56 d n).1.val / 2 ^ 55 % 2)
      (d.val / 2 ^ (56 - n) % 2 = 1) := by
  have hv := (dspAsl56_val hd n (by omega)).2
  have hovf : (d.pack >>> UInt64.ofNat (56 - n) ≠ 0) ↔ d.val / 2 ^ (56 - n) ≠ 0 := by
    rw [ne_eq, ← UInt64.toNat_inj, toNat_shiftRight64 _ _ (by omega), Acc56.pack_toNat hd]
    rfl
  -- bit 55 of the shifted `uint64_t` is bit 55 of the 56-bit result
  have hsign : ((d.pack >>> (55 : UInt64)) &&& (1 : UInt64) ≠
      ((d.pack <<< UInt64.ofNat n) >>> (55 : UInt64)) &&& 1) ↔
      d.val / 2 ^ 55 % 2 ≠ (dspAsl56 d n).1.val / 2 ^ 55 % 2 := by
    have hone : (1 : UInt64) = UInt64.ofNat (2 ^ 1 - 1) := rfl
    have h55 : (55 : UInt64) = UInt64.ofNat 55 := rfl
    rw [ne_eq, ← UInt64.toNat_inj, hone, h55, toNat_and_lowMask64 _ _ (by norm_num),
      toNat_and_lowMask64 _ _ (by norm_num), toNat_shiftRight64 _ _ (by norm_num),
      toNat_shiftRight64 _ _ (by norm_num), toNat_shiftLeft64_mod _ _ (by omega),
      Acc56.pack_toNat hd, hv]
    generalize d.val * 2 ^ n = x
    omega
  show ((if d.pack >>> UInt64.ofNat (56 - n) ≠ 0 then 1 else 0 : UInt16) <<< dspSrL) |||
      ((if (d.pack >>> (55 : UInt64)) &&& (1 : UInt64) ≠
          ((d.pack <<< UInt64.ofNat n) >>> (55 : UInt64)) &&& 1 then 1 else 0 : UInt16) <<< dspSrV) |||
      (((d.pack >>> UInt64.ofNat (56 - n)) &&& 1).toUInt16 <<< dspSrC) = _
  rw [pack_bit hd _ (by omega), pack_srBits]
  simp only [hovf, hsign]

/-- `dsp_asr56` leaves `D >> n` of the unsigned 56-bit value. -/
theorem dspAsr56_val (hd : d.Valid) (n : Nat) (hn : n < 64) :
    (dspAsr56 d n).1.Valid ∧ (dspAsr56 d n).1.val = d.val / 2 ^ n := by
  refine ⟨Acc56.unpack_valid _, ?_⟩
  show (Acc56.unpack (d.pack >>> UInt64.ofNat n)).val = _
  have hlt := d.val_lt hd
  rw [Acc56.unpack_val, toNat_shiftRight64 _ _ hn, Acc56.pack_toNat hd,
    Nat.mod_eq_of_lt (lt_of_le_of_lt (Nat.div_le_self _ _) hlt)]

/-- `dsp_asr56` returns the last bit shifted out, bit `n - 1`, as `C`. -/
theorem dspAsr56_ccr (hd : d.Valid) (n : Nat) (hn : n ≤ 64) :
    (dspAsr56 d n).2 = srBits false false (d.val / 2 ^ (n - 1) % 2 = 1) := by
  show ((d.pack >>> UInt64.ofNat (n - 1)) &&& 1).toUInt16 <<< dspSrC = _
  rw [pack_bit hd _ (by omega)]
  by_cases hc : d.val / 2 ^ (n - 1) % 2 = 1 <;> simp only [hc, if_true, if_false] <;> decide

end shifts

/-! ## Section 4: The arithmetic right shift

    The DSP56300 `ASR` divides the signed value by `2 ^ n`, rounding down.
    `dsp_asr56` shifts the unsigned value, so the two agree exactly on the
    non-negative accumulators. -/

/-- `ASR` as the DSP56300 defines it, in 56-bit two's complement. -/
def arithShiftRight56 (v n : Nat) : Nat := ((toSigned 55 v / 2 ^ n) % 2 ^ 56).toNat

theorem dspAsr56_eq_arith {d : Acc56} (hd : d.Valid) (hpos : d.val < 2 ^ 55) (n : Nat)
    (hn : n < 64) : (dspAsr56 d n).1.val = arithShiftRight56 d.val n := by
  have hlt : d.val / 2 ^ n < 2 ^ 56 := lt_of_le_of_lt (Nat.div_le_self _ _) (d.val_lt hd)
  rw [(dspAsr56_val hd n hn).2, arithShiftRight56, toSigned, if_neg (by omega)]
  have hcast : ((d.val : Int) / 2 ^ n) = ((d.val / 2 ^ n : Nat) : Int) := by push_cast; rfl
  rw [hcast, Int.emod_eq_of_lt (by positivity) (by exact_mod_cast hlt), Int.toNat_natCast]

/-- On a negative accumulator the result of `dsp_asr56` is non-negative,
    where the arithmetic shift of a negative value stays negative. -/
theorem dspAsr56_ne_arith_of_neg {d : Acc56} (hd : d.Valid) (hneg : 2 ^ 55 ≤ d.val) (n : Nat)
    (hn1 : 1 ≤ n) (hn : n ≤ 55) : (dspAsr56 d n).1.val ≠ arithShiftRight56 d.val n := by
  have hlt := d.val_lt hd
  -- the code's result lies below `2 ^ 55`
  have hcode : (dspAsr56 d n).1.val < 2 ^ 55 := by
    rw [(dspAsr56_val hd n (by omega)).2, Nat.div_lt_iff_lt_mul (Nat.two_pow_pos n)]
    calc d.val < 2 ^ 56 := hlt
      _ = 2 ^ 55 * 2 ^ 1 := by norm_num
      _ ≤ 2 ^ 55 * 2 ^ n := Nat.mul_le_mul_left _ (Nat.pow_le_pow_right (by norm_num) hn1)
  -- the arithmetic shift of `s ∈ [-2^55, 0)` lies in `[-2^55, 0)`
  set s : Int := (d.val : Int) - 2 ^ 56 with hs
  have hs0 : s < 0 := by omega
  have hs1 : -2 ^ 55 ≤ s := by omega
  have hP : (0 : Int) < 2 ^ n := by positivity
  have hq0 : s / 2 ^ n < 0 := Int.ediv_neg_of_neg_of_pos hs0 hP
  have hq1 : -2 ^ 55 ≤ s / 2 ^ n := by
    apply Int.le_ediv_of_mul_le hP
    have h1 : (1 : Int) ≤ 2 ^ n := by exact_mod_cast Nat.one_le_two_pow
    nlinarith
  have hspec : 2 ^ 55 ≤ arithShiftRight56 d.val n := by
    rw [arithShiftRight56, toSigned, if_pos hneg, show ((d.val : Int) - 2 ^ (55 + 1)) = s by
      rw [hs]]
    have hm : 2 ^ 55 ≤ s / 2 ^ n % 2 ^ 56 := by omega
    omega
  omega

/-- `dsp_asr56` fills with zeros: `-2 >> 1` gives `2^55 - 1`, not `-1`.  And
    the flags of `dsp_asl56` test other bits than the DSP56300 `V` and `L`:
    shifting `0xA0:000000:000000` by 2 moves bits 55, 54, 53 = 1, 0, 1
    through the sign (a change) but leaves `V` clear, and shifting `-1` by 1
    changes no sign bit but sets `L`. -/
theorem asr56_logical_asl56_flags :
    (dspAsr56 ⟨0xFF, 0xFFFFFF, 0xFFFFFE⟩ 1).1 = ⟨0x7F, 0xFFFFFF, 0xFFFFFF⟩ ∧
    arithShiftRight56 (Acc56.val ⟨0xFF, 0xFFFFFF, 0xFFFFFE⟩) 1 = 2 ^ 56 - 1 ∧
    (dspAsl56 ⟨0xA0, 0, 0⟩ 2).2 = srBits true false false ∧
    (dspAsl56 ⟨0xFF, 0xFFFFFF, 0xFFFFFF⟩ 1).2 = srBits true false true := by
  decide

/-! ## Section 5: The fractional multiply, as `dsp_cpu.c` writes it -/

/-- `if (source & (1<<23)) { signe ^= 1; source = (1<<24) - source; }`:
    a negative operand is replaced by its magnitude and flips the sign. -/
def mulMagnitude (signe : UInt8) (source : UInt32) : UInt8 × UInt32 :=
  if source &&& ((1 : UInt32) <<< 23) ≠ 0 then (signe ^^^ 1, ((1 : UInt32) <<< 24) - source)
  else (signe, source)

/-- The four 12 × 12-bit partial products summed into `dest[2]` and
    `dest[1]`, with `dest[0] = 0`, before the carries. -/
def mulPartials (source1 source2 : UInt32) : Acc56 :=
  let part0 := (source1 &&& bitmask 12) * (source2 &&& bitmask 12)
  let part1 := ((source1 >>> 12) &&& bitmask 12) * (source2 &&& bitmask 12)
  let part2 := (source1 &&& bitmask 12) * ((source2 >>> 12) &&& bitmask 12)
  let part3 := ((source1 >>> 12) &&& bitmask 12) * ((source2 >>> 12) &&& bitmask 12)
  let d2 := part0 + ((part1 &&& bitmask 12) <<< 12) + ((part2 &&& bitmask 12) <<< 12)
  let d1 := ((part1 >>> 12) &&& bitmask 12) + ((part2 >>> 12) &&& bitmask 12) + part3
  ⟨0, d1, d2⟩

/-- The first carry step of `dsp_mul56`: bits 31..24 of `dest[2]` move
    into `dest[1]`. -/
def carryLow (d : Acc56) : Acc56 :=
  let value := (d.w2 >>> 24) &&& bitmask 8
  if value ≠ 0 then { d with w1 := d.w1 + value, w2 := d.w2 &&& bitmask 24 } else d

/-- The second carry step: bits 31..24 of `dest[1]` move into `dest[0]`. -/
def carryMid (d : Acc56) : Acc56 :=
  let value := (d.w1 >>> 24) &&& bitmask 8
  if value ≠ 0 then { d with w0 := d.w0 + value, w1 := d.w1 &&& bitmask 24 } else d

/-- The two carry steps of `dsp_mul56`. -/
def mulCarries (d : Acc56) : Acc56 := carryMid (carryLow d)

/-- `dsp_mul56(source1, source2, dest, signe)`: `D = ±2 · S1 · S2`. -/
def dspMul56 (source1 source2 : UInt32) (signe : UInt8) : Acc56 :=
  let (signe, source1) := mulMagnitude signe source1
  let (signe, source2) := mulMagnitude signe source2
  -- `dsp_asl56(dest, 1)` gets rid of the extra sign bit
  let dest := (dspAsl56 (mulCarries (mulPartials source1 source2)) 1).1
  if signe ≠ 0 then (dspSub56 dest ⟨0, 0, 0⟩).1 else dest

/-! ## Section 6: What the multiply computes

    The magnitudes are at most `2 ^ 23`, so every partial product and
    every sum of them fits in 32 bits; the carry steps normalise the limbs
    without changing the value, and the doubling cannot wrap. -/

theorem toNat_shiftRight12 (x : UInt32) : (x >>> 12).toNat = x.toNat / 2 ^ 12 := by
  simp [Nat.shiftRight_eq_div_pow]

theorem toNat_shiftRight24 (x : UInt32) : (x >>> 24).toNat = x.toNat / 2 ^ 24 := by
  simp [Nat.shiftRight_eq_div_pow]

/-- A product of two 12-bit numbers has 24 bits. -/
theorem mul_lt_of_twelve {x y : Nat} (hx : x < 2 ^ 12) (hy : y < 2 ^ 12) : x * y < 2 ^ 24 :=
  calc x * y < 2 ^ 12 * 2 ^ 12 := Nat.mul_lt_mul'' hx hy
    _ = 2 ^ 24 := by norm_num

/-- The schoolbook product of two 24-bit numbers in 12-bit halves. -/
theorem mul_halves (a b : Nat) :
    a * b = a / 2 ^ 12 * (b / 2 ^ 12) * 2 ^ 24 +
      (a / 2 ^ 12 * (b % 2 ^ 12) + a % 2 ^ 12 * (b / 2 ^ 12)) * 2 ^ 12 +
      a % 2 ^ 12 * (b % 2 ^ 12) := by
  conv_lhs => rw [← Nat.div_add_mod a (2 ^ 12), ← Nat.div_add_mod b (2 ^ 12)]
  ring

/-- The low 12-bit field `x & BITMASK(12)`. -/
theorem toNat_low12 (x : UInt32) : (x &&& bitmask 12).toNat = x.toNat % 2 ^ 12 :=
  toNat_and_bitmask _ _ (by norm_num)

/-- The high 12-bit field `(x >> 12) & BITMASK(12)` of a 24-bit word. -/
theorem toNat_high12 (x : UInt32) (h : x.toNat < 2 ^ 24) :
    ((x >>> 12) &&& bitmask 12).toNat = x.toNat / 2 ^ 12 := by
  rw [toNat_and_bitmask _ _ (by norm_num), toNat_shiftRight12]
  omega

/-- The product of two 12-bit fields, which cannot wrap. -/
theorem toNat_mul_fields {x y : UInt32} {a b : Nat} (hx : x.toNat = a) (hy : y.toNat = b)
    (ha : a < 2 ^ 12) (hb : b < 2 ^ 12) : (x * y).toNat = a * b := by
  have hlt : a * b < 2 ^ 32 := lt_trans (mul_lt_of_twelve ha hb) (by norm_num)
  rw [toNat_mul_of_lt (by rw [hx, hy]; exact hlt), hx, hy]

theorem mulPartials_limbs (m1 m2 : UInt32) (h1 : m1.toNat < 2 ^ 24) (h2 : m2.toNat < 2 ^ 24) :
    (mulPartials m1 m2).w0 = 0 ∧
    (mulPartials m1 m2).w1.toNat * 2 ^ 24 + (mulPartials m1 m2).w2.toNat = m1.toNat * m2.toNat ∧
    (mulPartials m1 m2).w2.toNat < 3 * 2 ^ 24 ∧ (mulPartials m1 m2).w1.toNat < 2 ^ 25 := by
  have hal : m1.toNat % 2 ^ 12 < 2 ^ 12 := Nat.mod_lt _ (by norm_num)
  have hah : m1.toNat / 2 ^ 12 < 2 ^ 12 := by omega
  have hbl : m2.toNat % 2 ^ 12 < 2 ^ 12 := Nat.mod_lt _ (by norm_num)
  have hbh : m2.toNat / 2 ^ 12 < 2 ^ 12 := by omega
  -- no partial product wraps
  have e0 := toNat_mul_fields (toNat_low12 m1) (toNat_low12 m2) hal hbl
  have e1 := toNat_mul_fields (toNat_high12 m1 h1) (toNat_low12 m2) hah hbl
  have e2 := toNat_mul_fields (toNat_low12 m1) (toNat_high12 m2 h2) hal hbh
  have e3 := toNat_mul_fields (toNat_high12 m1 h1) (toNat_high12 m2 h2) hah hbh
  have hp0 := mul_lt_of_twelve hal hbl
  have hp1 := mul_lt_of_twelve hah hbl
  have hp2 := mul_lt_of_twelve hal hbh
  have hp3 := mul_lt_of_twelve hah hbh
  have hw2 : (mulPartials m1 m2).w2.toNat = m1.toNat % 2 ^ 12 * (m2.toNat % 2 ^ 12) +
      m1.toNat / 2 ^ 12 * (m2.toNat % 2 ^ 12) % 2 ^ 12 * 2 ^ 12 +
      m1.toNat % 2 ^ 12 * (m2.toNat / 2 ^ 12) % 2 ^ 12 * 2 ^ 12 := by
    simp only [mulPartials, UInt32.toNat_add, UInt32.toNat_shiftLeft, toNat_low12, e0, e1, e2,
      Nat.shiftLeft_eq, UInt32.reduceToNat, Nat.reduceMod]
    omega
  have hw1 : (mulPartials m1 m2).w1.toNat = m1.toNat / 2 ^ 12 * (m2.toNat % 2 ^ 12) / 2 ^ 12 +
      m1.toNat % 2 ^ 12 * (m2.toNat / 2 ^ 12) / 2 ^ 12 + m1.toNat / 2 ^ 12 * (m2.toNat / 2 ^ 12) := by
    simp only [mulPartials, UInt32.toNat_add, toNat_low12, toNat_shiftRight12, e1, e2, e3]
    omega
  have hmul := mul_halves m1.toNat m2.toNat
  refine ⟨rfl, ?_, ?_, ?_⟩ <;> omega

/-- Bits 31..24 of a word, `(x >> 24) & BITMASK(8)`. -/
theorem toNat_carryByte (x : UInt32) : ((x >>> 24) &&& bitmask 8).toNat = x.toNat / 2 ^ 24 := by
  have hx := x.toNat_lt
  rw [toNat_and_bitmask _ _ (by norm_num), toNat_shiftRight24]
  omega

/-- The test `if (value)` of a carry step only skips a step that changes
    nothing: with no carry the word already fits in 24 bits. -/
theorem carry_skip (x hi : UInt32) (h : ¬ (x >>> 24) &&& bitmask 8 ≠ 0) :
    hi = hi + ((x >>> 24) &&& bitmask 8) ∧ x = x &&& bitmask 24 := by
  have hz : (x >>> 24) &&& bitmask 8 = 0 := not_not.mp h
  have hlt : x.toNat < 2 ^ 24 := by
    have := congrArg UInt32.toNat hz
    rw [toNat_carryByte] at this
    simp only [UInt32.toNat_zero] at this
    omega
  refine ⟨by rw [hz, UInt32.add_zero], ?_⟩
  apply UInt32.toNat_inj.mp
  rw [toNat_and_bitmask _ _ (by norm_num), Nat.mod_eq_of_lt hlt]

theorem carryLow_eq (d : Acc56) :
    carryLow d = { d with w1 := d.w1 + ((d.w2 >>> 24) &&& bitmask 8), w2 := d.w2 &&& bitmask 24 } := by
  unfold carryLow
  dsimp only
  split_ifs with h
  · rfl
  · obtain ⟨h1, h2⟩ := carry_skip d.w2 d.w1 h
    rw [← h1, ← h2]

theorem carryMid_eq (d : Acc56) :
    carryMid d = { d with w0 := d.w0 + ((d.w1 >>> 24) &&& bitmask 8), w1 := d.w1 &&& bitmask 24 } := by
  unfold carryMid
  dsimp only
  split_ifs with h
  · rfl
  · obtain ⟨h0, h1⟩ := carry_skip d.w1 d.w0 h
    rw [← h0, ← h1]

/-- The carry steps leave the value `w1 · 2^24 + w2` in the representation. -/
theorem mulCarries_spec (d : Acc56) (h0 : d.w0 = 0) (h2 : d.w2.toNat < 3 * 2 ^ 24)
    (h1 : d.w1.toNat < 2 ^ 25) :
    (mulCarries d).Valid ∧ (mulCarries d).val = d.w1.toNat * 2 ^ 24 + d.w2.toNat := by
  have hw1 : (d.w1 + ((d.w2 >>> 24) &&& bitmask 8)).toNat = d.w1.toNat + d.w2.toNat / 2 ^ 24 := by
    rw [UInt32.toNat_add, toNat_carryByte]; omega
  have hw0 : (d.w0 + ((d.w1 + ((d.w2 >>> 24) &&& bitmask 8)) >>> 24 &&& bitmask 8)).toNat =
      (d.w1.toNat + d.w2.toNat / 2 ^ 24) / 2 ^ 24 := by
    rw [UInt32.toNat_add, toNat_carryByte, hw1, h0, UInt32.toNat_zero]; omega
  rw [mulCarries, carryLow_eq, carryMid_eq]
  refine ⟨⟨?_, ?_, ?_⟩, ?_⟩ <;>
    simp only [Acc56.val, hw0, hw1, toNat_and_bitmask _ _ (by norm_num : 24 ≤ 32)] <;> omega

theorem mulMagnitude_spec (signe : UInt8) (source : UInt32) (h : source.toNat < 2 ^ 24) :
    (mulMagnitude signe source).2.toNat = (toSigned 23 source.toNat).natAbs ∧
    (mulMagnitude signe source).1 = if 2 ^ 23 ≤ source.toNat then signe ^^^ 1 else signe := by
  have htest : source &&& ((1 : UInt32) <<< 23) ≠ 0 ↔ 2 ^ 23 ≤ source.toNat := by
    rw [and_shiftLeft_ne_zero _ 23 (by decide)]
    simp only [UInt32.reduceToNat]
    omega
  unfold mulMagnitude
  by_cases hneg : 2 ^ 23 ≤ source.toNat
  · -- a negative operand: `(1 << 24) - source` is its magnitude
    have hle : source ≤ (1 : UInt32) <<< 24 := by
      rw [UInt32.le_iff_toNat_le]; simp only [UInt32.toNat_shiftLeft]; simp; omega
    rw [if_pos (htest.mpr hneg), if_pos hneg, toSigned, if_pos hneg]
    refine ⟨?_, rfl⟩
    rw [UInt32.toNat_sub_of_le _ _ hle]
    simp only [UInt32.toNat_shiftLeft]
    simp
    omega
  · rw [if_neg (fun h => hneg (htest.mp h)), if_neg hneg, toSigned, if_neg hneg]
    exact ⟨by simp, rfl⟩

/-- The flag that decides the final negation is the parity of the starting
    flag and the two operand signs. -/
theorem mulSign_ne_zero (sign : Bool) (p q : Prop) [Decidable p] [Decidable q] :
    (if q then ((if p then sign.toUInt8 ^^^ 1 else sign.toUInt8) ^^^ 1)
      else (if p then sign.toUInt8 ^^^ 1 else sign.toUInt8)) ≠ 0 ↔
      (sign ^^ decide p ^^ decide q) = true := by
  by_cases hp : p <;> by_cases hq : q <;> cases sign <;> simp [hp, hq] <;> decide

/-- Signs of the flag and the two operands multiply out as their parity. -/
theorem signed_double_product (c : Bool) (p q : Prop) [Decidable p] [Decidable q] (x y : Int) :
    (if c then -1 else 1) * 2 * (if p then -x else x) * (if q then -y else y) =
      if (c ^^ decide p ^^ decide q) = true then -(2 * (x * y)) else 2 * (x * y) := by
  by_cases hp : p <;> by_cases hq : q <;> cases c <;> simp [hp, hq] <;> ring

/-- `dsp_mul56` is exact: the 56-bit encoding of `(-1)^sign · 2 · s1 · s2`
    for all 24-bit operands.  The doubled product of two magnitudes is at
    most `2 · 2^23 · 2^23 = 2^47`, so nothing wraps before the negation. -/
theorem mul56_fractional_exact (s1 s2 : UInt32) (h1 : s1.toNat < 2 ^ 24) (h2 : s2.toNat < 2 ^ 24)
    (sign : Bool) :
    (dspMul56 s1 s2 sign.toUInt8).Valid ∧
    ((dspMul56 s1 s2 sign.toUInt8).val : Int) =
      ((if sign then -1 else 1) * 2 * toSigned 23 s1.toNat * toSigned 23 s2.toNat) % 2 ^ 56 := by
  obtain ⟨hm1, hsg1⟩ := mulMagnitude_spec sign.toUInt8 s1 h1
  obtain ⟨hm2, hsg2⟩ := mulMagnitude_spec (mulMagnitude sign.toUInt8 s1).1 s2 h2
  -- name the magnitudes and the final sign flag
  generalize hM1 : mulMagnitude sign.toUInt8 s1 = M1 at hm1 hsg1 hm2 hsg2
  generalize hM2 : mulMagnitude M1.1 s2 = M2 at hm2 hsg2
  obtain ⟨sg1, m1⟩ := M1
  obtain ⟨sg2, m2⟩ := M2
  simp only at hm1 hsg1 hm2 hsg2
  have hb1 : m1.toNat ≤ 2 ^ 23 := by rw [hm1, toSigned]; split_ifs <;> omega
  have hb2 : m2.toNat ≤ 2 ^ 23 := by rw [hm2, toSigned]; split_ifs <;> omega
  -- the doubled magnitude product, before the optional negation
  obtain ⟨hw0, hval, hw2, hw1⟩ := mulPartials_limbs m1 m2 (by omega) (by omega)
  obtain ⟨hcv, hcval⟩ := mulCarries_spec _ hw0 hw2 hw1
  obtain ⟨hav, haval⟩ := dspAsl56_val hcv 1 (by norm_num)
  rw [hcval, hval] at haval
  have hprod : m1.toNat * m2.toNat ≤ 2 ^ 23 * 2 ^ 23 := Nat.mul_le_mul hb1 hb2
  have hdouble : (dspAsl56 (mulCarries (mulPartials m1 m2)) 1).1.val =
      2 * (m1.toNat * m2.toNat) := by
    rw [haval]; omega
  have hcode : dspMul56 s1 s2 sign.toUInt8 =
      if sg2 ≠ 0 then (dspSub56 (dspAsl56 (mulCarries (mulPartials m1 m2)) 1).1 ⟨0, 0, 0⟩).1
      else (dspAsl56 (mulCarries (mulPartials m1 m2)) 1).1 := by
    simp only [dspMul56, hM1, hM2]
  -- the specification's product, as the magnitude product with the parity of the signs
  have ht1 := toSigned_eq_ite_natAbs (n := 23) s1.toNat h1
  have ht2 := toSigned_eq_ite_natAbs (n := 23) s2.toNat h2
  rw [← hm1] at ht1
  rw [← hm2] at ht2
  have htarget : ((if sign then -1 else 1) * 2 * toSigned 23 s1.toNat * toSigned 23 s2.toNat : Int) =
      if (sign ^^ decide (2 ^ 23 ≤ s1.toNat) ^^ decide (2 ^ 23 ≤ s2.toNat)) = true
      then -(2 * ((m1.toNat * m2.toNat : Nat) : Int)) else 2 * ((m1.toNat * m2.toNat : Nat) : Int) := by
    rw [ht1, ht2, signed_double_product]
    push_cast
    rfl
  have hflag : sg2 ≠ 0 ↔ (sign ^^ decide (2 ^ 23 ≤ s1.toNat) ^^ decide (2 ^ 23 ≤ s2.toNat)) = true := by
    rw [hsg2, hsg1]
    exact mulSign_ne_zero sign _ _
  rw [hcode, htarget]
  by_cases hneg : (sign ^^ decide (2 ^ 23 ≤ s1.toNat) ^^ decide (2 ^ 23 ≤ s2.toNat)) = true
  · -- a negative product: the code negates through `dsp_sub56` from zero
    have hzero : (⟨0, 0, 0⟩ : Acc56).Valid := by decide
    obtain ⟨hsub, -⟩ := dspSub56_val_borrow hav hzero
    rw [if_pos (hflag.mpr hneg), if_pos hneg]
    refine ⟨dspSub56_valid _ _, ?_⟩
    rw [hsub, hdouble]
    simp only [Acc56.val]
    push_cast
    omega
  · rw [if_neg (mt hflag.mp hneg), if_neg hneg]
    refine ⟨hav, ?_⟩
    rw [hdouble]
    push_cast
    omega

/-- The corner `s1 = s2 = 0x800000` (−1.0 · −1.0). -/
theorem mul56_fractional_exact_corner :
    (0x800000 : UInt32).toNat < 2 ^ 24 ∧ (0x800000 : UInt32).toNat < 2 ^ 24 ∧
    ((dspMul56 0x800000 0x800000 false.toUInt8).Valid ∧
      ((dspMul56 0x800000 0x800000 false.toUInt8).val : Int) =
        ((if false then -1 else 1) * 2 * toSigned 23 (0x800000 : UInt32).toNat *
          toSigned 23 (0x800000 : UInt32).toNat) % 2 ^ 56) :=
  ⟨by decide, by decide, mul56_fractional_exact 0x800000 0x800000 (by decide) (by decide) false⟩

example : dspMul56 0x800000 0x800000 0 = ⟨0, 0x800000, 0⟩ := by decide

end Xemu.Dsp
