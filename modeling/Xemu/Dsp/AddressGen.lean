import Xemu.Dsp.Core
import Xemu.Lib.Loop

/-! # Address register updates: linear, modulo and reverse-carry

    Model of `emu_update_rn`, `emu_update_rn_modulo` and
    `emu_update_rn_bitreverse` (`hw/xbox/mcpx/apu/dsp/dsp_emu.c.inc`), the
    post-update of an address register `Rn` by a modifier, in the mode its
    modifier register `Mn` selects: `0xFFFF` linear, `0` reverse-carry,
    `1 ..= 0x7FFF` modulo `Mn + 1`.

    The C works on `uint16_t` and `int16_t` locals; the model keeps them as
    `UInt16` and `Int16`, whose arithmetic wraps as the C conversions to
    the 16-bit types do.  A comparison between an `int16_t` and a
    `uint16_t` promotes both to `int`, and is read here on `Int`.

    The result: in modulo mode the bound tests compare the `int16_t` copy
    of `Rn` with the buffer's bounds.  At `0x8000` and above that copy is
    negative, the test sees `Rn` below the buffer, and the update leaves
    the buffer; below `0x8000` the sum `Rn + modifier` can overflow
    `int16_t` and leave it as well (`update_rn_modulo_leaves_buffer`).
-/

namespace Xemu.Dsp

open Xemu.Word Xemu.Loop

/-! ## Section 1: Reverse-carry update, as `dsp_emu.c.inc` writes it -/

/-- `for (revbits = 0; revbits < 16; revbits++) if (value & (1 << revbits)) break;`
    from `revbits`, with `fuel` passes left. -/
def revbitsSearch (value : UInt32) : Nat → Nat → Nat
  | 0, revbits => revbits
  | fuel + 1, revbits =>
    if value &&& ((1 : UInt32) <<< revbits.toUInt32) ≠ 0 then revbits
    else revbitsSearch value fuel (revbits + 1)

/-- `value = r_reg & (BITMASK(16) - BITMASK(revbits));` followed by
    `for (i = 0; i < revbits; i++) if (r_reg & (1 << i)) value |= 1 << (revbits - i - 1);` -/
def reverseLow (rReg : UInt32) (revbits : Nat) : UInt32 :=
  forLoop revbits
    (fun i value =>
      if rReg &&& ((1 : UInt32) <<< i.toUInt32) ≠ 0 then
        value ||| ((1 : UInt32) <<< (revbits - i - 1).toUInt32)
      else value)
    (rReg &&& (bitmask 16 - bitmask revbits))

/-- `emu_update_rn_bitreverse`: reverse the low `revbits` bits of `Rn`,
    increment them, and reverse them back; `revbits` is one more than the
    position of the lowest set bit of `Nn`. -/
def emuUpdateRnBitreverse (s : DspCore) (numreg : Nat) : DspCore :=
  let revbits := revbitsSearch (s.registers (DspReg.n0 + numreg)) 16 0 + 1
  let rReg := s.registers (DspReg.r0 + numreg)
  let value := reverseLow rReg revbits
  let value := (value + 1) &&& bitmask revbits
  let rReg := (rReg &&& (bitmask 16 - bitmask revbits)) ||| value
  s.setReg (DspReg.r0 + numreg) (reverseLow rReg revbits)

/-! ## Section 2: Modulo update, as `dsp_emu.c.inc` writes it -/

/-- `while (bufsize < modulo) { bufsize <<= 1; bufmask <<= 1; }`, with
    `fuel` passes left: sixteen are enough for `modulo ≤ 2 ^ 15`. -/
def bufLoop (modulo : UInt16) : Nat → UInt16 → UInt16 → UInt16 × UInt16
  | 0, bufsize, bufmask => (bufsize, bufmask)
  | fuel + 1, bufsize, bufmask =>
    if bufsize < modulo then bufLoop modulo fuel (bufsize <<< 1) (bufmask <<< 1)
    else (bufsize, bufmask)

/-- `while (modifier > bufsize) { r_reg += bufsize; modifier -= bufsize; }` -/
def wrapDown (bufsize : UInt16) : Nat → Int16 × Int16 → Int16 × Int16
  | 0, st => st
  | fuel + 1, (rReg, modifier) =>
    if modifier.toInt > bufsize.toNat then
      wrapDown bufsize fuel (rReg + bufsize.toInt16, modifier - bufsize.toInt16)
    else (rReg, modifier)

/-- `while (modifier < -bufsize) { r_reg -= bufsize; modifier += bufsize; }` -/
def wrapUp (bufsize : UInt16) : Nat → Int16 × Int16 → Int16 × Int16
  | 0, st => st
  | fuel + 1, (rReg, modifier) =>
    if modifier.toInt < -(bufsize.toNat : Int) then
      wrapUp bufsize fuel (rReg - bufsize.toInt16, modifier + bufsize.toInt16)
    else (rReg, modifier)

/-- `emu_update_rn_modulo`.  The multiple-wrap loops run at most `2 ^ 15`
    passes, since each takes `bufsize ≥ 1` off `|modifier| < 2 ^ 15`. -/
def emuUpdateRnModulo (s : DspCore) (numreg : Nat) (modifier : Int16) : DspCore :=
  let origModifier := modifier
  let modulo : UInt16 := (s.registers (DspReg.m0 + numreg) + 1).toUInt16
  let (bufsize, bufmask) := bufLoop modulo 16 1 0xFFFF
  let lobound : UInt16 := (s.registers (DspReg.r0 + numreg) &&& bufmask.toUInt32).toUInt16
  let hibound : UInt16 := lobound + modulo - 1
  let rReg : Int16 := (s.registers (DspReg.r0 + numreg)).toUInt16.toInt16
  let (rReg, modifier) :=
    if origModifier.toInt > modulo.toNat then
      wrapUp bufsize (2 ^ 15) (wrapDown bufsize (2 ^ 15) (rReg, modifier))
    else (rReg, modifier)
  let rReg := rReg + modifier
  -- the bound tests compare the signed `r_reg` with the unsigned bounds
  let rReg :=
    if origModifier.toInt ≠ modulo.toNat then
      if rReg.toInt > hibound.toNat then rReg - modulo.toInt16
      else if rReg.toInt < lobound.toNat then rReg + modulo.toInt16
      else rReg
    else rReg
  s.setReg (DspReg.r0 + numreg) rReg.toUInt16.toUInt32

/-- `emu_update_rn`: the mode is chosen by `(uint16_t) Mn`. -/
def emuUpdateRn (s : DspCore) (numreg : Nat) (modifier : Int16) : DspCore :=
  let mReg : UInt16 := (s.registers (DspReg.m0 + numreg)).toUInt16
  if mReg = 65535 then
    -- linear addressing
    let value : Int16 := (s.registers (DspReg.r0 + numreg)).toUInt16.toInt16 + modifier
    s.setReg (DspReg.r0 + numreg) value.toUInt16.toUInt32
  else if mReg = 0 then emuUpdateRnBitreverse s numreg
  else if mReg ≤ 32767 then emuUpdateRnModulo s numreg modifier
  else s

/-! ## Section 3: Modulo addressing

    The buffer of a modulus `m` is the aligned block of size
    `2 ^ ⌈log₂ m⌉` that holds `Rn`; its first `m` addresses are used. -/

/-- The first address of the buffer of modulus `m` holding `r`: `r` with
    its low `⌈log₂ m⌉` bits cleared. -/
def bufferBase (m r : Nat) : Nat := 2 ^ Nat.clog 2 m * (r / 2 ^ Nat.clog 2 m)

/-- At `0x8000` and above the `int16_t` copy of `Rn` is negative, so the
    lower bound test fires for an address inside the buffer: with `Mn = 3`
    the buffer of `Rn = 0x8000` is `[0x8000, 0x8003]`, and `+1` gives
    `0x8005`.  Below `0x8000` the sum can overflow `int16_t`: with
    `Mn = 0x3fff` the buffer of `Rn = 0x7fff` is `[0x4000, 0x7fff]`, and
    `+0x3fff` gives `0xfffe`. -/
theorem update_rn_modulo_leaves_buffer :
    bufferBase 4 0x8000 = 0x8000 ∧
    (emuUpdateRn ((DspCore.zeroed.setReg DspReg.m0 3).setReg DspReg.r0 0x8000) 0 1).registers
      DspReg.r0 = 0x8005 ∧
    bufferBase 0x4000 0x7fff = 0x4000 ∧
    (emuUpdateRn ((DspCore.zeroed.setReg DspReg.m0 0x3fff).setReg DspReg.r0 0x7fff) 0 0x3fff).registers
      DspReg.r0 = 0xfffe := by
  decide

end Xemu.Dsp
