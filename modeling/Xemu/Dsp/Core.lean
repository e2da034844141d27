import Mathlib.Logic.Function.Basic
import Xemu.Lib.Word

/-! # The DSP56300 core: registers, memories and the system stack

    Model of the part of `dsp_core_t` (`hw/xbox/mcpx/apu/dsp/dsp_cpu.h`)
    that instruction fetch, the loop hardware and the decoded-opcode cache
    read and write, with the accessors of `dsp_cpu.c` that touch it:
    `read_memory_p`, `dsp56k_read_memory`, `write_memory_raw`,
    `dsp56k_add_interrupt`, `dsp_stack_push` and `dsp_stack_pop`.

    Registers are the array `registers[DSP_REG_MAX]`, indexed by the
    register numbers of `dsp_cpu_regs.h`; the system stack is the array
    `stack[2][16]`, whose row 0 holds the SSH and row 1 the SSL half of each
    level.  Memories are arrays indexed by address; `pram_opcache` holds the
    index of an entry of `nonparallel_opcodes`, `none` for `NULL`.  The
    peripheral callbacks `read_peripheral` / `write_peripheral` are
    parameters of the functions that call them.  The `assert`s of the
    accessors (addresses in range, 24-bit words) are not modelled: the model
    continues as a build without assertions would.

    The results of this file are the spec lemmas of the stack: a push into a
    stack with room, and a pop of a non-empty stack, move `SP` by one, write
    or read one level, and change nothing else.
-/

namespace Xemu.Dsp

open Xemu.Word

/-! ## Section 1: Register numbers, status bits and the memory map -/

namespace DspReg

/-- `DSP_REG_A0` -/
abbrev a0 : Nat := 0x08
/-- `DSP_REG_A2` -/
abbrev a2 : Nat := 0x0a
/-- `DSP_REG_A1` -/
abbrev a1 : Nat := 0x0c
/-- `DSP_REG_R0`; `R0 + n` is `Rn`. -/
abbrev r0 : Nat := 0x10

/-- `DSP_REG_N0`; `N0 + n` is `Nn`. -/
abbrev n0 : Nat := 0x18

/-- `DSP_REG_M0`; `M0 + n` is `Mn`. -/
abbrev m0 : Nat := 0x20

/-- `DSP_REG_A` -/
abbrev a : Nat := 0x0e
/-- `DSP_REG_B` -/
abbrev b : Nat := 0x0f
/-- `DSP_REG_LCSAVE` -/
abbrev lcsave : Nat := 0x30
/-- `DSP_REG_SR` -/
abbrev sr : Nat := 0x39
/-- `DSP_REG_SP` -/
abbrev sp : Nat := 0x3b
/-- `DSP_REG_SSH` -/
abbrev ssh : Nat := 0x3c
/-- `DSP_REG_SSL` -/
abbrev ssl : Nat := 0x3d
/-- `DSP_REG_LA` -/
abbrev la : Nat := 0x3e
/-- `DSP_REG_LC` -/
abbrev lc : Nat := 0x3f

end DspReg

namespace DspSr

/-- `DSP_SR_L`, the limit flag. -/
abbrev l : UInt32 := 0x06
/-- `DSP_SR_S0`, the low scaling-mode bit. -/
abbrev s0 : UInt32 := 0x0a
/-- `DSP_SR_S1`, the high scaling-mode bit. -/
abbrev s1 : UInt32 := 0x0b

/-- `DSP_SR_LF`, the loop flag. -/
abbrev lf : UInt32 := 0x0f

end DspSr

namespace DspSp

/-- `DSP_SP_SE`, the stack-error flag of `SP`. -/
abbrev se : UInt32 := 0x04
/-- `DSP_SP_UF`, the underflow flag of `SP`. -/
abbrev uf : UInt32 := 0x05

end DspSp

/-- `DSP_INTER_STACK_ERROR` -/
abbrev dspInterStackError : Nat := 0x2

/-- `DSP_XRAM_SIZE` -/
abbrev dspXramSize : UInt32 := 4096
/-- `DSP_PRAM_SIZE` -/
abbrev dspPramSize : Nat := 4096
/-- `DSP_MIXBUFFER_BASE` -/
abbrev dspMixbufferBase : UInt32 := 0x001400
/-- `DSP_MIXBUFFER_SIZE` -/
abbrev dspMixbufferSize : UInt32 := 1024
/-- `DSP_PERIPH_BASE` -/
abbrev dspPeriphBase : UInt32 := 0xFFFF80

/-- The memory spaces `DSP_SPACE_X`, `DSP_SPACE_Y`, `DSP_SPACE_P`. -/
inductive DspSpace
  | x
  | y
  | p
deriving DecidableEq, Repr

/-- The space selected by the one-bit field `(cur_inst >> 6) & 1` of a
    move or loop instruction: 0 is X, 1 is Y. -/
def DspSpace.ofBit (bit : UInt32) : DspSpace :=
  if bit = 0 then .x else .y

/-! ## Section 2: The core state -/

/-- The fields of `dsp_core_t` this development reads and writes. -/
structure DspCore where
  pc : UInt32
  registers : Nat → UInt32
  /-- `stack[0]` holds the SSH and `stack[1]` the SSL half of each level. -/
  stack : Fin 2 → Nat → UInt32
  xram : Nat → UInt32
  yram : Nat → UInt32
  pram : Nat → UInt32
  /-- The index of the decoded `nonparallel_opcodes` entry, `none` for `NULL`. -/
  pramOpcache : Nat → Option Nat
  mixbuffer : Nat → UInt32
  /-- Executing a REP? -/
  loopRep : UInt32
  /-- Is the PC on the REP instruction itself? -/
  pcOnRep : UInt32
  interruptCounter : UInt16
  interruptIpl : Nat → Int
  interruptIsPending : Nat → UInt16
  /-- Length of the current instruction: 0 for a jump. -/
  curInstLen : UInt32
  curInst : UInt32

namespace DspCore

/-- The core as `dsp_init` leaves it after `memset(dsp, 0, sizeof(*dsp))`. -/
def zeroed : DspCore where
  pc := 0
  registers := fun _ => 0
  stack := fun _ _ => 0
  xram := fun _ => 0
  yram := fun _ => 0
  pram := fun _ => 0
  pramOpcache := fun _ => none
  mixbuffer := fun _ => 0
  loopRep := 0
  pcOnRep := 0
  interruptCounter := 0
  interruptIpl := fun _ => 0
  interruptIsPending := fun _ => 0
  curInstLen := 0
  curInst := 0

/-- `dsp->registers[r] = v` -/
@[simps -fullyApplied]
def setReg (s : DspCore) (r : Nat) (v : UInt32) : DspCore :=
  { s with registers := Function.update s.registers r v }

/-- `dsp->stack[half][level] = v` -/
@[simps -fullyApplied]
def setStack (s : DspCore) (half : Fin 2) (level : Nat) (v : UInt32) : DspCore :=
  { s with stack := Function.update s.stack half (Function.update (s.stack half) level v) }

/-- `dsp->pc = v` -/
@[simps -fullyApplied]
def setPc (s : DspCore) (v : UInt32) : DspCore := { s with pc := v }

/-- `dsp->cur_inst_len = v` -/
@[simps -fullyApplied]
def setCurInstLen (s : DspCore) (v : UInt32) : DspCore := { s with curInstLen := v }

/-- `dsp->loop_rep = v` -/
@[simps -fullyApplied]
def setLoopRep (s : DspCore) (v : UInt32) : DspCore := { s with loopRep := v }

/-- `dsp->pc_on_rep = v` -/
@[simps -fullyApplied]
def setPcOnRep (s : DspCore) (v : UInt32) : DspCore := { s with pcOnRep := v }

theorem setReg_setReg_ne (s : DspCore) {r r' : Nat} (h : r ≠ r') (v v' : UInt32) :
    (s.setReg r v).setReg r' v' = (s.setReg r' v').setReg r v := by
  simp only [setReg]
  congr 1
  exact Function.update_comm (β := fun _ => UInt32) h v v' _

@[simp] theorem setReg_setReg_same (s : DspCore) (r : Nat) (v v' : UInt32) :
    (s.setReg r v).setReg r v' = s.setReg r v' := by
  simp [setReg]

@[simp] theorem setReg_self (s : DspCore) (r : Nat) : s.setReg r (s.registers r) = s := by
  simp [setReg]

end DspCore

/-! ## Section 3: Memory access -/

/-- `read_memory_p` -/
def readMemoryP (s : DspCore) (address : UInt32) : UInt32 :=
  s.pram address.toNat

/-- `dsp56k_read_memory`: X space holds the peripherals, two windows on the
    mix buffer and X RAM; an X address outside all of them reads
    `0x00FFFFFF`. -/
def dsp56kReadMemory (readPeripheral : DspCore → UInt32 → UInt32) (s : DspCore)
    (space : DspSpace) (address : UInt32) : UInt32 :=
  match space with
  | .x =>
    if address ≥ dspPeriphBase then readPeripheral s address
    else if address ≥ dspMixbufferBase ∧ address < dspMixbufferBase + dspMixbufferSize then
      s.mixbuffer (address - dspMixbufferBase).toNat
    else if address ≥ 0xc00 ∧ address < 0xc00 + dspMixbufferSize then
      s.mixbuffer (address - 0xc00).toNat
    else if address < dspXramSize then s.xram address.toNat
    else 0x00FFFFFF
  | .y => s.yram address.toNat
  | .p => readMemoryP s address

/-- `write_memory_raw`: a write to P memory drops the decoded opcode cached
    for that address. -/
def writeMemoryRaw (writePeripheral : DspCore → UInt32 → UInt32 → DspCore) (s : DspCore)
    (space : DspSpace) (address value : UInt32) : DspCore :=
  match space with
  | .x =>
    if address ≥ dspPeriphBase then writePeripheral s address value
    else if address ≥ dspMixbufferBase ∧ address < dspMixbufferBase + dspMixbufferSize then
      { s with mixbuffer := Function.update s.mixbuffer (address - dspMixbufferBase).toNat value }
    else if address ≥ 0xc00 ∧ address < 0xc00 + dspMixbufferSize then
      { s with mixbuffer := Function.update s.mixbuffer (address - 0xc00).toNat value }
    else { s with xram := Function.update s.xram address.toNat value }
  | .y => { s with yram := Function.update s.yram address.toNat value }
  | .p =>
    { s with pram := Function.update s.pram address.toNat value,
             pramOpcache := Function.update s.pramOpcache address.toNat none }

/-! ## Section 4: Interrupt posting -/

/-- `dsp56k_add_interrupt`: an interrupt whose level is -1 is not used;
    otherwise it becomes pending once. -/
def dsp56kAddInterrupt (s : DspCore) (inter : Nat) : DspCore :=
  if s.interruptIpl inter = -1 then s
  else if s.interruptIsPending inter = 0 then
    { s with interruptIsPending := Function.update s.interruptIsPending inter 1,
             interruptCounter := s.interruptCounter + 1 }
  else s

/-! ## Section 5: The system stack -/

/-- `dsp_stack_push`.  The `assert` under `exception_debugging` that follows
    the overflow interrupt is not modelled. -/
def dspStackPush (s : DspCore) (curpc cursr : UInt32) (sshOnly : Bool) : DspCore :=
  let stackError := s.registers DspReg.sp &&& (1 <<< DspSp.se)
  let underflow := s.registers DspReg.sp &&& (1 <<< DspSp.uf)
  let stack := (s.registers DspReg.sp &&& bitmask 4) + 1
  -- stack full: raise the stack-error interrupt
  let s := if stackError = 0 ∧ stack &&& (1 <<< DspSp.se) ≠ 0 then
    dsp56kAddInterrupt s dspInterStackError else s
  let s := s.setReg DspReg.sp ((underflow ||| stackError ||| stack) &&& bitmask 6)
  let stack := stack &&& bitmask 4
  let s :=
    if stack ≠ 0 then
      let s := s.setStack 0 stack.toNat (curpc &&& bitmask 16)
      -- the SSL half is kept by instructions like MOVEC xx, SSH
      if sshOnly then s else s.setStack 1 stack.toNat (cursr &&& bitmask 16)
    else (s.setStack 0 0 0).setStack 1 0 0
  (s.setReg DspReg.ssh (s.stack 0 stack.toNat)).setReg DspReg.ssl (s.stack 1 stack.toNat)

/-- `dsp_stack_pop`: the values of SSH and SSL, and the state with the level
    below on top. -/
def dspStackPop (s : DspCore) : UInt32 × UInt32 × DspCore :=
  let stackError := s.registers DspReg.sp &&& (1 <<< DspSp.se)
  let underflow := s.registers DspReg.sp &&& (1 <<< DspSp.uf)
  let stack := (s.registers DspReg.sp &&& bitmask 4) - 1
  -- stack empty: raise the stack-error interrupt
  let s := if stackError = 0 ∧ stack &&& (1 <<< DspSp.se) ≠ 0 then
    dsp56kAddInterrupt s dspInterStackError else s
  let s := s.setReg DspReg.sp ((underflow ||| stackError ||| stack) &&& bitmask 6)
  let stack := stack &&& bitmask 4
  let newpc := s.registers DspReg.ssh
  let newsr := s.registers DspReg.ssl
  (newpc, newsr,
    (s.setReg DspReg.ssh (s.stack 0 stack.toNat)).setReg DspReg.ssl (s.stack 1 stack.toNat))

/-- The level `SP & 15` of the stack pointer. -/
def stackLevel (s : DspCore) : Nat := (s.registers DspReg.sp &&& bitmask 4).toNat

/-- A stack pointer that fits its six bits and has the stack-error flag
    clear: its value is the underflow flag and the level. -/
def SpClean (sp : UInt32) : Prop := sp.toNat < 64 ∧ sp.toNat &&& 16 = 0

theorem toNat_and_bitmask4 (sp : UInt32) : (sp &&& bitmask 4).toNat = sp.toNat &&& 15 := by
  simp [UInt32.toNat_and, toNat_bitmask]

/-- The bit arithmetic of a push.  With the stack-error flag clear and room
    above the level, no interrupt is raised, the new `SP` is `SP + 1`, and
    the new level is one more.  `SP` has six bits, so each fact is checked
    over all 64 values. -/
theorem push_sp (sp : UInt32) (hsp : SpClean sp) (hroom : sp.toNat &&& 15 < 15) :
    sp &&& (1 <<< DspSp.se) = 0 ∧
    ((sp &&& bitmask 4) + 1 : UInt32) &&& (1 <<< DspSp.se) = 0 ∧
    (sp &&& (1 <<< DspSp.uf) ||| sp &&& (1 <<< DspSp.se) ||| ((sp &&& bitmask 4) + 1 : UInt32)) &&&
      bitmask 6 = sp + 1 ∧
    ((sp &&& bitmask 4) + 1 : UInt32) &&& bitmask 4 = (sp &&& bitmask 4) + 1 ∧
    ((sp &&& bitmask 4) + 1 : UInt32).toNat = (sp &&& bitmask 4).toNat + 1 ∧
    ((sp + 1) &&& bitmask 4).toNat = (sp &&& bitmask 4).toNat + 1 ∧
    SpClean (sp + 1) := by
  obtain ⟨h64, hse⟩ := hsp
  refine ⟨?_, ?_, ?_, ?_, ?_, ?_, ⟨?_, ?_⟩⟩
  all_goals
    try apply UInt32.toNat_inj.mp
    simp only [UInt32.toNat_and, UInt32.toNat_or, UInt32.toNat_add, UInt32.toNat_shiftLeft,
      bitmask, UInt32.toNat_ofNat, DspSp.se, DspSp.uf]
    revert hroom hse
    revert h64
    generalize sp.toNat = n
    revert n
    decide

/-- The bit arithmetic of a pop.  With the stack-error flag clear and a level
    above zero, no interrupt is raised, the new `SP` is `SP - 1`, and the new
    level is one less. -/
theorem pop_sp (sp : UInt32) (hsp : SpClean sp) (hlevel : 0 < sp.toNat &&& 15) :
    sp &&& (1 <<< DspSp.se) = 0 ∧
    ((sp &&& bitmask 4) - 1 : UInt32) &&& (1 <<< DspSp.se) = 0 ∧
    (sp &&& (1 <<< DspSp.uf) ||| sp &&& (1 <<< DspSp.se) ||| ((sp &&& bitmask 4) - 1 : UInt32)) &&&
      bitmask 6 = sp - 1 ∧
    (((sp &&& bitmask 4) - 1 : UInt32) &&& bitmask 4).toNat = (sp &&& bitmask 4).toNat - 1 ∧
    ((sp - 1) &&& bitmask 4).toNat = (sp &&& bitmask 4).toNat - 1 ∧
    SpClean (sp - 1) := by
  obtain ⟨h64, hse⟩ := hsp
  refine ⟨?_, ?_, ?_, ?_, ?_, ⟨?_, ?_⟩⟩
  all_goals
    try apply UInt32.toNat_inj.mp
    simp only [UInt32.toNat_and, UInt32.toNat_or, UInt32.toNat_sub, UInt32.toNat_shiftLeft,
      bitmask, UInt32.toNat_ofNat, DspSp.se, DspSp.uf]
    revert hlevel hse
    revert h64
    generalize sp.toNat = n
    revert n
    decide

@[simp] theorem stackLevel_setReg_sp (s : DspCore) (v : UInt32) :
    stackLevel (s.setReg DspReg.sp v) = (v &&& bitmask 4).toNat := by
  simp [stackLevel]

@[simp] theorem stackLevel_setReg (s : DspCore) {r : Nat} (h : r ≠ DspReg.sp) (v : UInt32) :
    stackLevel (s.setReg r v) = stackLevel s := by
  simp [stackLevel, Function.update_of_ne (Ne.symm h)]

@[simp] theorem stackLevel_setStack (s : DspCore) (half : Fin 2) (level : Nat) (v : UInt32) :
    stackLevel (s.setStack half level v) = stackLevel s := rfl

@[simp] theorem stackLevel_setPc (s : DspCore) (v : UInt32) :
    stackLevel (s.setPc v) = stackLevel s := rfl

@[simp] theorem stackLevel_setCurInstLen (s : DspCore) (v : UInt32) :
    stackLevel (s.setCurInstLen v) = stackLevel s := rfl

theorem toNat_sp_and_15 (s : DspCore) :
    (s.registers DspReg.sp).toNat &&& 15 = stackLevel s := by
  simp [stackLevel, UInt32.toNat_and, toNat_bitmask]

/-- A push into a stack with room: `SP` goes up by one, the new level holds
    `curpc` and `cursr` cut to 16 bits, and SSH and SSL show that level. -/
theorem dspStackPush_of_room (s : DspCore) (curpc cursr : UInt32)
    (hsp : SpClean (s.registers DspReg.sp)) (hroom : stackLevel s < 15) :
    dspStackPush s curpc cursr false =
      ((((s.setReg DspReg.sp (s.registers DspReg.sp + 1)).setStack 0 (stackLevel s + 1)
        (curpc &&& bitmask 16)).setStack 1 (stackLevel s + 1) (cursr &&& bitmask 16)).setReg
        DspReg.ssh (curpc &&& bitmask 16)).setReg DspReg.ssl (cursr &&& bitmask 16) := by
  obtain ⟨hse, hfull, hsp', hmask, hlevel, -, -⟩ :=
    push_sp _ hsp (by rw [toNat_sp_and_15]; exact hroom)
  have hne : ((s.registers DspReg.sp &&& bitmask 4) + 1 : UInt32) ≠ 0 := by
    intro h
    have h0 := congrArg UInt32.toNat h
    rw [hlevel] at h0
    simp at h0
  simp only [dspStackPush]
  rw [hsp']
  simp only [hse, hfull, hmask, hlevel, stackLevel]
  simp [hne]

/-- A pop of a non-empty stack: it returns SSH and SSL, `SP` goes down by
    one, and SSH and SSL show the level below. -/
theorem dspStackPop_of_level (s : DspCore) (hsp : SpClean (s.registers DspReg.sp))
    (hlevel : 0 < stackLevel s) :
    dspStackPop s = (s.registers DspReg.ssh, s.registers DspReg.ssl,
      ((s.setReg DspReg.sp (s.registers DspReg.sp - 1)).setReg DspReg.ssh
        (s.stack 0 (stackLevel s - 1))).setReg DspReg.ssl (s.stack 1 (stackLevel s - 1))) := by
  obtain ⟨hse, hempty, hsp', hlevel', -, -⟩ :=
    pop_sp _ hsp (by rw [toNat_sp_and_15]; exact hlevel)
  simp only [dspStackPop]
  rw [hsp']
  simp only [hse, hempty, hlevel', stackLevel]
  simp

/-- A stack pointer with room above its level stays clean one level up. -/
theorem spClean_succ (sp : UInt32) (hsp : SpClean sp) (hroom : (sp &&& bitmask 4).toNat < 15) :
    SpClean (sp + 1) ∧ ((sp + 1) &&& bitmask 4).toNat = (sp &&& bitmask 4).toNat + 1 := by
  obtain ⟨-, -, -, -, -, hlevel, hclean⟩ :=
    push_sp sp hsp (by rw [← toNat_and_bitmask4]; exact hroom)
  exact ⟨hclean, hlevel⟩

/-- A stack pointer above level zero stays clean one level down. -/
theorem spClean_pred (sp : UInt32) (hsp : SpClean sp) (hlevel : 0 < (sp &&& bitmask 4).toNat) :
    SpClean (sp - 1) ∧ ((sp - 1) &&& bitmask 4).toNat = (sp &&& bitmask 4).toNat - 1 := by
  obtain ⟨-, -, -, -, hlevel', hclean⟩ :=
    pop_sp sp hsp (by rw [← toNat_and_bitmask4]; exact hlevel)
  exact ⟨hclean, hlevel'⟩

end Xemu.Dsp
