import Xemu.Lib.Word

/-! # 56-bit accumulator arithmetic of the DSP56300 core

    Model of the 56-bit helpers of `hw/xbox/mcpx/apu/dsp/dsp_cpu.c` on
    which every ALU instruction rests (`add`, `sub`, `cmp`, `mac`, `neg`,
    `abs`, `rnd`, ...).

    An accumulator is passed as `uint32_t dest[3]`:
    `dest[0]` holds bits 55..48, `dest[1]` bits 47..24 and `dest[2]`
    bits 23..0.  The helpers work limb by limb in 32-bit arithmetic and
    read the carry (or the borrow of an unsigned wrapped subtraction)
    from bit 24 of the intermediate word, or bit 8 for the top limb.

    The faithful model keeps the three `uint32_t` words as `UInt32`.  The
    abstract reading is the 56-bit value `val` (and its two's-complement
    reading `signed`); `Accumulator` carries the representation invariant
    as a field.  The results of this file say that the limb operations
    compute the 56-bit operations exactly, with the condition codes the
    DSP56300 defines.
-/

namespace Xemu.Dsp

open Xemu.Word

/-! ## Section 1: Data model -/

/-- The three words `dest[0]`, `dest[1]`, `dest[2]` of a 56-bit value. -/
structure Acc56 where
  w0 : UInt32
  w1 : UInt32
  w2 : UInt32
deriving DecidableEq, Repr

namespace Acc56

/-- The representation invariant: `w0 < 2^8`, `w1 < 2^24`, `w2 < 2^24`. -/
def Valid (a : Acc56) : Prop :=
  a.w0.toNat < 2 ^ 8 ∧ a.w1.toNat < 2 ^ 24 ∧ a.w2.toNat < 2 ^ 24

instance (a : Acc56) : Decidable a.Valid := inferInstanceAs (Decidable (_ ∧ _ ∧ _))

/-- The unsigned 56-bit value of the three words. -/
def val (a : Acc56) : Nat := a.w0.toNat * 2 ^ 48 + a.w1.toNat * 2 ^ 24 + a.w2.toNat

/-- The two's-complement reading of the 56-bit value. -/
def signed (a : Acc56) : Int := toSigned 55 a.val

theorem val_lt (a : Acc56) (h : a.Valid) : a.val < 2 ^ 56 := by
  obtain ⟨h0, h1, h2⟩ := h
  unfold val
  omega

end Acc56

/-- An accumulator in the three-word representation: invalid words cannot
    be built. -/
structure Accumulator where
  words : Acc56
  valid : words.Valid

namespace Accumulator

def val (a : Accumulator) : Nat := a.words.val

def signed (a : Accumulator) : Int := a.words.signed

theorem val_lt (a : Accumulator) : a.val < 2 ^ 56 := a.words.val_lt a.valid

end Accumulator

/-- Bit positions of the condition codes in `SR` (`dsp_cpu_regs.h`). -/
def dspSrC : UInt16 := 0x00
def dspSrV : UInt16 := 0x01
def dspSrL : UInt16 := 0x06

/-! ## Section 2: The helpers, as `dsp_cpu.c` writes them

    The in-place limb updates of each helper (`dest[2] += ...;
    dest[1] += ...; dest[0] += ...` and the three `&= BITMASK(..)`) are
    named as steps of their own, so that the flag computations below can
    refer to the intermediate words. -/

/-- The three in-place limb additions of `dsp_add56`, before masking:
    each limb adds bit 24 of the limb below as its carry. -/
def rippleAdd (source dest : Acc56) : Acc56 :=
  let d2 := dest.w2 + source.w2
  let d1 := dest.w1 + (source.w1 + ((d2 >>> 24) &&& 1))
  let d0 := dest.w0 + (source.w0 + ((d1 >>> 24) &&& 1))
  ⟨d0, d1, d2⟩

/-- The three in-place limb subtractions of `dsp_sub56`, before masking:
    each limb subtracts bit 24 of the (wrapped) limb below as its borrow. -/
def rippleSub (source dest : Acc56) : Acc56 :=
  let d2 := dest.w2 - source.w2
  let d1 := dest.w1 - (source.w1 + ((d2 >>> 24) &&& 1))
  let d0 := dest.w0 - (source.w0 + ((d1 >>> 24) &&& 1))
  ⟨d0, d1, d2⟩

/-- `dest[2] &= BITMASK(24); dest[1] &= BITMASK(24); dest[0] &= BITMASK(8);` -/
def Acc56.mask (u : Acc56) : Acc56 := ⟨u.w0 &&& bitmask 8, u.w1 &&& bitmask 24, u.w2 &&& bitmask 24⟩

/-- A sign flag `(w >> 7) & 1` stored in a `uint16_t`. -/
def signFlag (w : UInt32) : UInt16 := ((w >>> 7) &&& 1).toUInt16

/-- `dsp_add56(source, dest)`: `D = D + S`; returns the new `L`, `V`, `C`. -/
def dspAdd56 (source dest : Acc56) : Acc56 × UInt16 :=
  let flgS := signFlag source.w0
  let flgD := signFlag dest.w0
  let u := rippleAdd source dest
  let carry : UInt16 := ((u.w0 >>> 8) &&& 1).toUInt16
  let r := u.mask
  let flgR := signFlag r.w0
  let overflow := (flgS ^^^ flgR) &&& (flgD ^^^ flgR)
  (r, (overflow <<< dspSrL) ||| (overflow <<< dspSrV) ||| (carry <<< dspSrC))

/-- `dsp_sub56(source, dest)`: `D = D - S`; the borrows are read from the
    unmasked, wrapped 32-bit differences. -/
def dspSub56 (source dest : Acc56) : Acc56 × UInt16 :=
  let destSave : UInt16 := dest.w0.toUInt16
  let u := rippleSub source dest
  let carry : UInt16 := ((u.w0 >>> 8) &&& 1).toUInt16
  let r := u.mask
  let flgS := signFlag source.w0
  let flgD : UInt16 := (destSave >>> 7) &&& 1
  let flgR := signFlag r.w0
  let overflow := (flgS ^^^ flgD) &&& (flgR ^^^ flgD)
  (r, (overflow <<< dspSrL) ||| (overflow <<< dspSrV) ||| (carry <<< dspSrC))

/-- `dsp_abs56(dest)`: negate through `dsp_sub56(dest, zero)` when the sign
    bit is set. -/
def dspAbs56 (dest : Acc56) : Acc56 × UInt16 :=
  if dest.w0 &&& ((1 : UInt32) <<< 7) ≠ 0 then
    dspSub56 dest ⟨0, 0, 0⟩
  else
    (dest, 0)

/-- The condition-code word the helpers return: `L` and `V` both set on
    signed overflow, `C` on unsigned carry (or borrow). -/
def ccr (carry overflow : Bool) : UInt16 :=
  (if overflow then (1 <<< dspSrL) ||| (1 <<< dspSrV) else 0) |||
    (if carry then 1 <<< dspSrC else 0)

/-! ## Section 3: Masking and flag words

    The helpers compute each flag as a 0/1 `uint16_t` and pack them with
    shifts.  These lemmas read the packed word back as booleans, once for
    all helpers. -/

@[simp] theorem Acc56.mask_valid (u : Acc56) : u.mask.Valid := by
  refine ⟨?_, ?_, ?_⟩ <;>
    simp only [Acc56.mask, toNat_and_bitmask _ _ (by norm_num : 8 ≤ 32),
      toNat_and_bitmask _ _ (by norm_num : 24 ≤ 32)] <;>
    omega

theorem Acc56.mask_val (u : Acc56) :
    u.mask.val = u.w0.toNat % 2 ^ 8 * 2 ^ 48 + u.w1.toNat % 2 ^ 24 * 2 ^ 24 + u.w2.toNat % 2 ^ 24 := by
  simp only [Acc56.mask, Acc56.val, toNat_and_bitmask _ _ (by norm_num : 8 ≤ 32),
    toNat_and_bitmask _ _ (by norm_num : 24 ≤ 32)]

/-- A 0/1 word is the `if` of its condition. -/
theorem flag_eq_ite (f : UInt16) (p : Prop) [Decidable p] (h : f.toNat = if p then 1 else 0) :
    f = if p then 1 else 0 := by
  apply UInt16.toNat_inj.mp
  rw [h]
  split_ifs <;> rfl

/-- The sign flag of a valid accumulator is its bit 55. -/
theorem signFlag_eq (a : Acc56) (h : a.Valid) :
    signFlag a.w0 = if 2 ^ 55 ≤ a.val then 1 else 0 := by
  obtain ⟨h0, h1, h2⟩ := h
  have hbit : (signFlag a.w0).toNat = a.w0.toNat / 2 ^ 7 % 2 := by
    rw [signFlag, UInt32.toNat_toUInt16, toNat_shiftRight_and_one _ 7 (by decide)]
    simp only [UInt32.reduceToNat]
    omega
  apply flag_eq_ite
  rw [hbit]
  by_cases hc : 2 ^ 55 ≤ a.val
  · rw [if_pos hc]; unfold Acc56.val at hc; omega
  · rw [if_neg hc]; unfold Acc56.val at hc; omega

/-- Bit 8 of an unmasked top limb, as the `uint16_t` carry or borrow. -/
theorem carryFlag_toNat (w : UInt32) :
    ((w >>> 8) &&& 1).toUInt16.toNat = w.toNat / 2 ^ 8 % 2 := by
  rw [UInt32.toNat_toUInt16, toNat_shiftRight_and_one _ 8 (by decide)]
  simp only [UInt32.reduceToNat]
  omega

/-- The packed return value of `dsp_add56` and `dsp_sub56`: the overflow
    word is `(a ^ c) & (b ^ c)` of three sign flags. -/
theorem pack_flags (a b c carry : Prop) [Decidable a] [Decidable b] [Decidable c]
    [Decidable carry] :
    ((((if a then 1 else 0 : UInt16) ^^^ (if c then 1 else 0)) &&&
          ((if b then 1 else 0) ^^^ (if c then 1 else 0))) <<< dspSrL) |||
        ((((if a then 1 else 0 : UInt16) ^^^ (if c then 1 else 0)) &&&
          ((if b then 1 else 0) ^^^ (if c then 1 else 0))) <<< dspSrV) |||
        ((if carry then 1 else 0 : UInt16) <<< dspSrC) =
      ccr carry (¬ ((a ↔ c) ∨ (b ↔ c))) := by
  by_cases ha : a <;> by_cases hb : b <;> by_cases hc : c <;> by_cases hk : carry <;>
    simp only [ha, hb, hc, hk, if_true, if_false] <;> decide

/-! ## Section 4: Addition -/

section add

variable {s d : Acc56}

/-- The unmasked limbs of `dsp_add56` never wrap: each is the limb sum plus
    the carry of the limb below. -/
theorem rippleAdd_toNat (hs : s.Valid) (hd : d.Valid) :
    let c2 := (d.w2.toNat + s.w2.toNat) / 2 ^ 24
    let c1 := (d.w1.toNat + s.w1.toNat + c2) / 2 ^ 24
    (rippleAdd s d).w2.toNat = d.w2.toNat + s.w2.toNat ∧
    (rippleAdd s d).w1.toNat = d.w1.toNat + s.w1.toNat + c2 ∧
    (rippleAdd s d).w0.toNat = d.w0.toNat + s.w0.toNat + c1 := by
  obtain ⟨hs0, hs1, hs2⟩ := hs
  obtain ⟨hd0, hd1, hd2⟩ := hd
  simp only [rippleAdd, UInt32.toNat_add, toNat_shiftRight_and_one _ 24 (by decide),
    UInt32.reduceToNat]
  omega

theorem dspAdd56_valid (s d : Acc56) : (dspAdd56 s d).1.Valid := Acc56.mask_valid _

/-- The three limbs and their carries add up to the 56-bit sum. -/
theorem dspAdd56_val (hs : s.Valid) (hd : d.Valid) :
    (dspAdd56 s d).1.val = (d.val + s.val) % 2 ^ 56 := by
  obtain ⟨h2, h1, h0⟩ := rippleAdd_toNat hs hd
  have hsv := s.val_lt hs
  have hdv := d.val_lt hd
  show (rippleAdd s d).mask.val = _
  rw [Acc56.mask_val, h2, h1, h0]
  simp only [Acc56.val] at hsv hdv ⊢
  omega

/-- `dsp_add56` returns `C` = carry out of bit 55 and `V` = `L` = signed overflow. -/
theorem dspAdd56_ccr (hs : s.Valid) (hd : d.Valid) :
    (dspAdd56 s d).2 =
      ccr (2 ^ 56 ≤ d.val + s.val) (¬ FitsSigned 55 (d.signed + s.signed)) := by
  obtain ⟨h2, h1, h0⟩ := rippleAdd_toNat hs hd
  have hv := dspAdd56_val hs hd
  have hsv := s.val_lt hs
  have hdv := d.val_lt hd
  have hovf := add_overflow_iff (n := 55) d.val s.val hdv hsv
  rw [sign_bit_eq _ hdv, sign_bit_eq _ hsv, sign_bit_eq _ (Nat.mod_lt _ (by norm_num))] at hovf
  have hcarry : (2 ^ 8 ≤ (rippleAdd s d).w0.toNat) ↔ 2 ^ 56 ≤ d.val + s.val := by
    rw [h0]; simp only [Acc56.val] at hsv hdv ⊢; omega
  show (((signFlag s.w0 ^^^ signFlag (rippleAdd s d).mask.w0) &&&
      (signFlag d.w0 ^^^ signFlag (rippleAdd s d).mask.w0)) <<< dspSrL) ||| _ ||| _ = _
  have hc : ((rippleAdd s d).w0 >>> 8 &&& 1).toUInt16 =
      if 2 ^ 8 ≤ (rippleAdd s d).w0.toNat then 1 else 0 := by
    apply flag_eq_ite
    rw [carryFlag_toNat, h0]
    simp only [Acc56.val] at hsv hdv
    split_ifs <;> omega
  rw [signFlag_eq s hs, signFlag_eq d hd, signFlag_eq _ (Acc56.mask_valid _), hc, pack_flags]
  have hr : (rippleAdd s d).mask.val = (dspAdd56 s d).1.val := rfl
  rw [hr, hv]
  congr 1
  · exact decide_eq_decide.mpr hcarry
  · apply decide_eq_decide.mpr
    rw [Acc56.signed, Acc56.signed, ← hovf]
    by_cases ha : 2 ^ 55 ≤ s.val <;> by_cases hb : 2 ^ 55 ≤ d.val <;>
      by_cases hc : 2 ^ 55 ≤ (d.val + s.val) % 2 ^ 56 <;>
      simp only [Nat.reduceAdd, ha, hb, hc, if_true, if_false] <;> decide

/-- The largest positive accumulator plus one overflows into the sign bit
    without an unsigned carry. -/
example : (dspAdd56 ⟨0, 0, 1⟩ ⟨0x7F, 0xFFFFFF, 0xFFFFFF⟩).2 = ccr false true := by decide

end add

/-! ## Section 5: Subtraction

    The limbs of `dsp_sub56` do wrap: a borrow turns the 32-bit word into
    `2^32 - (b - a)`, and bit 24 (bit 8 for the top limb) of that word is
    the borrow into the next limb. -/

section sub

variable {s d : Acc56}

/-- The low bits of the wrapped limb differences, with the borrow chain
    `b2`, `b1`, `b0` read from bit 24, bit 24 and bit 8. -/
theorem rippleSub_spec (hs : s.Valid) (hd : d.Valid) :
    ∃ b2 b1 b0 : Nat, b2 ≤ 1 ∧ b1 ≤ 1 ∧ b0 ≤ 1 ∧
      (b2 = 1 ↔ d.w2.toNat < s.w2.toNat) ∧
      (b1 = 1 ↔ d.w1.toNat < s.w1.toNat + b2) ∧
      (b0 = 1 ↔ d.w0.toNat < s.w0.toNat + b1) ∧
      (rippleSub s d).w2.toNat % 2 ^ 24 + s.w2.toNat = d.w2.toNat + b2 * 2 ^ 24 ∧
      (rippleSub s d).w1.toNat % 2 ^ 24 + (s.w1.toNat + b2) = d.w1.toNat + b1 * 2 ^ 24 ∧
      (rippleSub s d).w0.toNat % 2 ^ 8 + (s.w0.toNat + b1) = d.w0.toNat + b0 * 2 ^ 8 ∧
      (rippleSub s d).w0.toNat / 2 ^ 8 % 2 = b0 := by
  obtain ⟨hs0, hs1, hs2⟩ := hs
  obtain ⟨hd0, hd1, hd2⟩ := hd
  -- the lowest limb: a plain wrapped difference
  have e2 : (rippleSub s d).w2.toNat = (2 ^ 32 - s.w2.toNat + d.w2.toNat) % 2 ^ 32 := by
    simp only [rippleSub, UInt32.toNat_sub]
  set b2 := if d.w2.toNat < s.w2.toNat then 1 else 0 with hb2
  have c2 : ((rippleSub s d).w2 >>> 24 &&& 1).toNat = b2 := by
    simp only [toNat_shiftRight_and_one _ 24 (by decide), UInt32.reduceToNat]
    rw [e2]
    exact borrow_bit _ _ (by norm_num) hd2 (by omega)
  have hb2le : b2 ≤ 1 := by rw [hb2]; split_ifs <;> omega
  -- the middle limb also subtracts the borrow `b2`, read from bit 24
  have e1 : (rippleSub s d).w1.toNat = (2 ^ 32 - (s.w1.toNat + b2) + d.w1.toNat) % 2 ^ 32 := by
    have h := c2
    simp only [rippleSub] at h ⊢
    rw [UInt32.toNat_sub, UInt32.toNat_add, h, Nat.mod_eq_of_lt (show s.w1.toNat + b2 < 2 ^ 32 by omega)]
  set b1 := if d.w1.toNat < s.w1.toNat + b2 then 1 else 0 with hb1
  have c1 : ((rippleSub s d).w1 >>> 24 &&& 1).toNat = b1 := by
    simp only [toNat_shiftRight_and_one _ 24 (by decide), UInt32.reduceToNat]
    rw [e1]
    exact borrow_bit _ _ (by norm_num) hd1 (by omega)
  have hb1le : b1 ≤ 1 := by rw [hb1]; split_ifs <;> omega
  -- the top limb subtracts the borrow `b1`
  have e0 : (rippleSub s d).w0.toNat = (2 ^ 32 - (s.w0.toNat + b1) + d.w0.toNat) % 2 ^ 32 := by
    have h := c1
    simp only [rippleSub] at h ⊢
    rw [UInt32.toNat_sub, UInt32.toNat_add, h, Nat.mod_eq_of_lt (show s.w0.toNat + b1 < 2 ^ 32 by omega)]
  refine ⟨b2, b1, if d.w0.toNat < s.w0.toNat + b1 then 1 else 0, hb2le, hb1le,
    by split_ifs <;> omega, by rw [hb2]; split_ifs <;> simp_all, by rw [hb1]; split_ifs <;> simp_all,
    by split_ifs <;> simp_all, ?_, ?_, ?_, ?_⟩
  · have h := borrow_low (k := 24) _ _ (by norm_num) hd2 (show s.w2.toNat ≤ 2 ^ 24 by omega)
    rw [e2, h, hb2]; split_ifs <;> omega
  · have h := borrow_low (k := 24) _ _ (by norm_num) hd1 (show s.w1.toNat + b2 ≤ 2 ^ 24 by omega)
    rw [e1, h, hb1]; split_ifs <;> omega
  · have h := borrow_low (k := 8) _ _ (by norm_num) hd0 (show s.w0.toNat + b1 ≤ 2 ^ 8 by omega)
    rw [e0, h]; split_ifs <;> omega
  · rw [e0]; exact borrow_bit _ _ (by norm_num) hd0 (by omega)

theorem dspSub56_valid (s d : Acc56) : (dspSub56 s d).1.Valid := Acc56.mask_valid _

/-- The borrow chain computes the 56-bit difference, and its last borrow
    is set exactly when `D < S`. -/
theorem dspSub56_val_borrow (hs : s.Valid) (hd : d.Valid) :
    (dspSub56 s d).1.val = (2 ^ 56 - s.val + d.val) % 2 ^ 56 ∧
    (rippleSub s d).w0.toNat / 2 ^ 8 % 2 = if d.val < s.val then 1 else 0 := by
  obtain ⟨b2, b1, b0, hb2, hb1, hb0, i2, i1, i0, h2, h1, h0, hb⟩ := rippleSub_spec hs hd
  have hsv := s.val_lt hs
  have hdv := d.val_lt hd
  obtain ⟨hs0, hs1, hs2⟩ := hs
  obtain ⟨hd0, hd1, hd2⟩ := hd
  constructor
  · show (rippleSub s d).mask.val = _
    rw [Acc56.mask_val]
    simp only [Acc56.val] at hsv hdv ⊢
    omega
  · rw [hb]
    by_cases hlt : d.val < s.val
    · rw [if_pos hlt]; simp only [Acc56.val] at hlt hsv hdv; omega
    · rw [if_neg hlt]; simp only [Acc56.val] at hlt hsv hdv; omega

/-- The sign flag computed from `dest_save`, the top limb truncated to `uint16_t`. -/
theorem destSave_flag (a : Acc56) (h : a.Valid) :
    (a.w0.toUInt16 >>> 7) &&& 1 = if 2 ^ 55 ≤ a.val then 1 else 0 := by
  obtain ⟨h0, h1, h2⟩ := h
  have hbit : ((a.w0.toUInt16 >>> 7) &&& 1).toNat = a.w0.toNat / 2 ^ 7 % 2 := by
    simp only [UInt16.toNat_and, UInt16.toNat_shiftRight, UInt32.toNat_toUInt16,
      UInt16.reduceToNat, Nat.shiftRight_eq_div_pow, Nat.and_one_is_mod]
    rw [Nat.mod_eq_of_lt (show a.w0.toNat < 2 ^ 16 by omega)]
  apply flag_eq_ite
  rw [hbit]
  by_cases hc : 2 ^ 55 ≤ a.val
  · rw [if_pos hc]; unfold Acc56.val at hc; omega
  · rw [if_neg hc]; unfold Acc56.val at hc; omega

/-- `dsp_sub56` returns `C` = borrow out of bit 55 and `V` = `L` = signed overflow. -/
theorem dspSub56_ccr (hs : s.Valid) (hd : d.Valid) :
    (dspSub56 s d).2 = ccr (d.val < s.val) (¬ FitsSigned 55 (d.signed - s.signed)) := by
  obtain ⟨hv, hb⟩ := dspSub56_val_borrow hs hd
  have hsv := s.val_lt hs
  have hdv := d.val_lt hd
  have hovf := sub_overflow_iff (n := 55) d.val s.val hdv hsv
  rw [sign_bit_eq _ hdv, sign_bit_eq _ hsv, sign_bit_eq _ (Nat.mod_lt _ (by norm_num))] at hovf
  have hc : ((rippleSub s d).w0 >>> 8 &&& 1).toUInt16 = if d.val < s.val then 1 else 0 := by
    apply flag_eq_ite
    rw [carryFlag_toNat, hb]
  show (((signFlag s.w0 ^^^ ((d.w0.toUInt16 >>> 7) &&& (1 : UInt16))) &&&
      (signFlag (rippleSub s d).mask.w0 ^^^ ((d.w0.toUInt16 >>> 7) &&& (1 : UInt16)))) <<< dspSrL) |||
      _ ||| _ = _
  rw [signFlag_eq s hs, destSave_flag d hd, signFlag_eq _ (Acc56.mask_valid _), hc, pack_flags]
  have hr : (rippleSub s d).mask.val = (dspSub56 s d).1.val := rfl
  rw [hr, hv]
  congr 1
  apply decide_eq_decide.mpr
  rw [Acc56.signed, Acc56.signed, ← hovf]
  by_cases ha : 2 ^ 55 ≤ s.val <;> by_cases hb : 2 ^ 55 ≤ d.val <;>
    by_cases hc : 2 ^ 55 ≤ (2 ^ 56 - s.val + d.val) % 2 ^ 56 <;>
    simp only [Nat.reduceAdd, ha, hb, hc, if_true, if_false] <;> decide

end sub

/-! ## Section 6: Absolute value -/

/-- The sign test of `dsp_abs56`, `dest[0] & (1 << 7)`, reads bit 55. -/
theorem abs_test_iff (a : Acc56) (h : a.Valid) :
    a.w0 &&& ((1 : UInt32) <<< 7) ≠ 0 ↔ 2 ^ 55 ≤ a.val := by
  obtain ⟨h0, h1, h2⟩ := h
  rw [and_shiftLeft_ne_zero _ 7 (by decide)]
  simp only [UInt32.reduceToNat, Acc56.val]
  omega

/-- `dsp_abs56` leaves `|D| mod 2^56` in the three-word representation. -/
theorem dspAbs56_val {d : Acc56} (hd : d.Valid) :
    (dspAbs56 d).1.Valid ∧ (dspAbs56 d).1.val = d.signed.natAbs % 2 ^ 56 := by
  have hdv := d.val_lt hd
  unfold dspAbs56
  split_ifs with hneg
  · have hneg' := (abs_test_iff d hd).mp hneg
    have hz : (⟨0, 0, 0⟩ : Acc56).Valid := by decide
    refine ⟨dspSub56_valid _ _, ?_⟩
    rw [(dspSub56_val_borrow hd hz).1, Acc56.signed, toSigned, if_pos hneg']
    have hzero : (⟨0, 0, 0⟩ : Acc56).val = 0 := rfl
    rw [hzero]
    omega
  · have hpos : ¬ 2 ^ 55 ≤ d.val := fun h => hneg ((abs_test_iff d hd).mpr h)
    refine ⟨hd, ?_⟩
    show d.val = _
    rw [Acc56.signed, toSigned, if_neg hpos]
    omega

/-! ## Section 7: The helpers compute exact 56-bit arithmetic -/

/-- `dsp_add56`, `dsp_sub56` and `dsp_abs56` on accumulators in the
    three-word representation: the result stays in the representation,
    its value is `(D + S) mod 2^56`, `(D - S) mod 2^56` or `|D| mod 2^56`,
    and the returned word holds `C` = the carry (borrow) out of bit 55 and
    `V` = `L` = signed overflow, nothing else. -/
theorem add56_sub56_abs56_exact (s d : Accumulator) :
    ((dspAdd56 s.words d.words).1.Valid ∧
      (dspAdd56 s.words d.words).1.val = (d.val + s.val) % 2 ^ 56 ∧
      (dspAdd56 s.words d.words).2 =
        ccr (2 ^ 56 ≤ d.val + s.val) (¬ FitsSigned 55 (d.signed + s.signed))) ∧
    ((dspSub56 s.words d.words).1.Valid ∧
      ((dspSub56 s.words d.words).1.val : Int) = ((d.val : Int) - s.val) % 2 ^ 56 ∧
      (dspSub56 s.words d.words).2 =
        ccr (d.val < s.val) (¬ FitsSigned 55 (d.signed - s.signed))) ∧
    ((dspAbs56 d.words).1.Valid ∧
      (dspAbs56 d.words).1.val = d.signed.natAbs % 2 ^ 56) := by
  have hs := s.valid
  have hd := d.valid
  have hsub := (dspSub56_val_borrow hs hd).1
  have hsv := s.val_lt
  have hdv := d.val_lt
  refine ⟨⟨dspAdd56_valid _ _, dspAdd56_val hs hd, dspAdd56_ccr hs hd⟩,
    ⟨dspSub56_valid _ _, ?_, dspSub56_ccr hs hd⟩, dspAbs56_val hd⟩
  rw [hsub]
  simp only [Accumulator.val] at hsv hdv ⊢
  omega

end Xemu.Dsp
