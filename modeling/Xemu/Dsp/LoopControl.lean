import Mathlib.Logic.Function.Iterate
import Xemu.Dsp.Core

/-! # DSP56300 hardware loops: DO, DOR, ENDDO and REP

    Model of the loop hardware of the DSP core: the emulation functions
    `emu_do_*`, `emu_dor_*`, `emu_enddo` and `emu_rep_*` of
    `hw/xbox/mcpx/apu/dsp/dsp_emu.c.inc`, and `dsp_postexecute_update_pc`
    of `dsp_cpu.c`, which after every instruction advances the PC, counts
    down a running REP and tests for the end of a DO loop's body.

    `dsp56k_execute_instruction` fetches `cur_inst = pram[pc]`, runs the
    emulation function the word decodes to and then updates the PC.  Here the
    decoding is a parameter `dispatch`, the emulation of each word; the
    decoder and its caches are the subject of `Xemu.Dsp.Opcache`.  The
    interrupt handling of `dsp_postexecute_interrupts` and the cycle counters
    are not part of this model: the results describe runs in which no
    interrupt is taken.

    A DO pushes `LA:LC`, then the address of the loop body and `SR`, sets the
    loop flag `SR.LF` and loads `LA` and `LC`.  When an instruction ends at
    `LA + 1` with `LF` set, `LC` counts down; at zero the loop is left by two
    pops, otherwise the PC returns to the body's start kept in `SSH`.

    The main results (Section 6):
    * `doLoop_run`: a DO whose body is straight-line code runs the body
      exactly `LC` times (65536 for 0), then continues at `LA + 1` with `SP`,
      `LA`, `LC` and `SR.LF` as before the DO, and the rest of `SR` as the
      body left it *masked with `0x7f`*: the loop exit clears the mode bits
      8..14 of `SR` (interrupt mask, scaling mode, trace).
    * `repeat_run`: REP runs the next instruction exactly its count of
      times and restores `LC`.
    * `enddo_restores`: ENDDO leaves the loop at once with the same context,
      and the same mask.
-/

namespace Xemu.Dsp

open Xemu.Word

/-! ## Section 1: Fetch, the post-execute update, and one instruction -/

/-- The loop-flag bit `1 << DSP_SR_LF` of `SR`. -/
abbrev lfBit : UInt32 := 1 <<< DspSr.lf

/-- The start of `dsp56k_execute_instruction`: `cur_inst = pram[pc]`, and a
    length of one word until the instruction says otherwise. -/
@[simps -fullyApplied]
def fetch (s : DspCore) : DspCore :=
  { s with curInst := readMemoryP s s.pc, curInstLen := 1 }

@[simp] theorem stackLevel_fetch (s : DspCore) : stackLevel (fetch s) = stackLevel s := rfl

/-- The REP part of `dsp_postexecute_update_pc`.  On the REP instruction
    itself (`pc_on_rep`) a count of 0 becomes 65536; on the repeated
    instruction `LC` counts down, and the PC stays (`cur_inst_len = 0`)
    until it reaches 0, when `LC` is restored from `LCSAVE`. -/
def repUpdate (s : DspCore) : DspCore :=
  if s.loopRep ≠ 0 then
    if s.pcOnRep = 0 then
      let s := s.setReg DspReg.lc ((s.registers DspReg.lc - 1) &&& bitmask 16)
      if s.registers DspReg.lc > 0 then s.setCurInstLen 0
      else (s.setReg DspReg.lc (s.registers DspReg.lcsave)).setLoopRep 0
    else
      let s := if s.registers DspReg.lc = 0 then s.setReg DspReg.lc 0x010000 else s
      s.setPcOnRep 0
  else s

/-- `dsp->pc += dsp->cur_inst_len` -/
def advancePc (s : DspCore) : DspCore :=
  s.setPc (s.pc + s.curInstLen)

@[simp] theorem advancePc_pc (s : DspCore) : (advancePc s).pc = s.pc + s.curInstLen := rfl

/-- Leaving a DO loop, as the last pass and `emu_enddo` both do: pop the
    loop start and the saved `SR`, keep bits 0..6 of `SR` and restore `LF`
    from the saved one, then pop `LA:LC`. -/
def exitLoop (s : DspCore) : DspCore :=
  let (_, savedSr, s) := dspStackPop s
  let s := s.setReg DspReg.sr (s.registers DspReg.sr &&& 0x7f)
  let s := s.setReg DspReg.sr (s.registers DspReg.sr ||| (savedSr &&& lfBit))
  let (la, lc, s) := dspStackPop s
  (s.setReg DspReg.la la).setReg DspReg.lc lc

/-- The end of a DO loop's body: count `LC` down, then leave the loop or go
    back to the body's start kept in `SSH`. -/
def loopEnd (s : DspCore) : DspCore :=
  let s := s.setReg DspReg.lc ((s.registers DspReg.lc - 1) &&& bitmask 16)
  if s.registers DspReg.lc = 0 then exitLoop s
  else s.setPc (s.registers DspReg.ssh)

/-- The DO part of `dsp_postexecute_update_pc`, on the advanced PC. -/
def loopUpdate (s : DspCore) : DspCore :=
  if s.registers DspReg.sr &&& lfBit ≠ 0 then
    if s.pc = s.registers DspReg.la + 1 then loopEnd s else s
  else s

/-- `dsp_postexecute_update_pc` -/
def dspPostexecuteUpdatePc (s : DspCore) : DspCore :=
  loopUpdate (advancePc (repUpdate s))

/-- One call of `dsp56k_execute_instruction`, where `dispatch w` is the
    emulation of the word `w` (the decoded `emu_func`, or the parallel-move
    handler for words from `0x100000`). -/
def dsp56kExecuteInstruction (dispatch : UInt32 → DspCore → DspCore) (s : DspCore) :
    DspCore :=
  let s := fetch s
  dspPostexecuteUpdatePc (dispatch s.curInst s)

/-! ## Section 2: The loop instructions -/

/-- What every DO and DOR does: push `LA:LC`, load `LA`, take the extension
    word, push the address after it (the body's start) with `SR`, and set
    `LF`. -/
def enterLoop (s : DspCore) (la : UInt32) : DspCore :=
  let s := dspStackPush s (s.registers DspReg.la) (s.registers DspReg.lc) false
  let s := s.setReg DspReg.la la
  let s := s.setCurInstLen (s.curInstLen + 1)
  let s := dspStackPush s (s.pc + s.curInstLen) (s.registers DspReg.sr) false
  s.setReg DspReg.sr (s.registers DspReg.sr ||| lfBit)

/-- The twelve-bit count `hhhh iiiiiiii` of `DO #xxx`, `DOR #xxx` and
    `REP #xxx`. -/
def immCount (w : UInt32) : UInt32 :=
  ((w >>> (8 : UInt32)) &&& bitmask 8) + ((w &&& bitmask 4) <<< (8 : UInt32))

/-- `emu_pm_read_accu24`: accumulator A or B read as 24 bits, scaled as
    `SR.S1:S0` says and limited to the 24-bit range, setting `SR.L` when it
    is limited. -/
def emuPmReadAccu24 (s : DspCore) (numreg : Nat) : UInt32 × DspCore :=
  let scaling := (s.registers DspReg.sr >>> DspSr.s0) &&& bitmask 2
  let reg := numreg % 2
  let value :=
    (s.registers (DspReg.a2 + reg) <<< (24 : UInt32)) + s.registers (DspReg.a1 + reg)
  let value :=
    if scaling = 1 then value >>> (1 : UInt32)
    else if scaling = 2 then
      (value <<< (1 : UInt32)) ||| ((s.registers (DspReg.a0 + reg) >>> (23 : UInt32)) &&& 1)
    else value
  let value := value &&& bitmask 24
  if s.registers (DspReg.a2 + reg) = 0 ∧ value ≤ 0x007fffff then (value, s)
  else if s.registers (DspReg.a2 + reg) = 0xff ∧ value ≥ 0x00800000 then (value, s)
  else if s.registers (DspReg.a2 + reg) &&& ((1 : UInt32) <<< (7 : UInt32)) ≠ 0 then
    (0x00800000, s.setReg DspReg.sr (s.registers DspReg.sr ||| (1 <<< DspSr.l)))
  else (0x007fffff, s.setReg DspReg.sr (s.registers DspReg.sr ||| (1 <<< DspSr.l)))

/-- The count read of `DO S`, `DOR S` and `REP S` from register `numreg`. -/
def readCountReg (s : DspCore) (numreg : Nat) : UInt32 × DspCore :=
  if numreg = DspReg.a ∨ numreg = DspReg.b then emuPmReadAccu24 s numreg
  else (s.registers numreg, s)

/-- The register field `DDDDDD` of `DO S`, `DOR S` and `REP S`. -/
def countRegField (w : UInt32) : Nat := ((w >>> (8 : UInt32)) &&& bitmask 6).toNat

/-- `emu_do_imm`: `DO #xxx, expr` -/
def emuDoImm (s : DspCore) : DspCore :=
  (enterLoop s (readMemoryP s (s.pc + 1) &&& bitmask 16)).setReg DspReg.lc
    (immCount s.curInst)

/-- `emu_do_aa`: `DO [X or Y]:aa, expr` -/
def emuDoAa (readPeripheral : DspCore → UInt32 → UInt32) (s : DspCore) : DspCore :=
  let s := enterLoop s (readMemoryP s (s.pc + 1) &&& bitmask 16)
  s.setReg DspReg.lc
    (dsp56kReadMemory readPeripheral s (.ofBit ((s.curInst >>> (6 : UInt32)) &&& 1))
      ((s.curInst >>> (8 : UInt32)) &&& bitmask 6) &&& bitmask 16)

/-- `emu_do_reg`: `DO S, expr`.  Unlike the other variants it reads the
    count register between the two pushes. -/
def emuDoReg (s : DspCore) : DspCore :=
  let s := dspStackPush s (s.registers DspReg.la) (s.registers DspReg.lc) false
  let s := s.setReg DspReg.la (readMemoryP s (s.pc + 1) &&& bitmask 16)
  let s := s.setCurInstLen (s.curInstLen + 1)
  let (count, s) := readCountReg s (countRegField s.curInst)
  let s := s.setReg DspReg.lc (count &&& bitmask 16)
  let s := dspStackPush s (s.pc + s.curInstLen) (s.registers DspReg.sr) false
  s.setReg DspReg.sr (s.registers DspReg.sr ||| lfBit)

/-- `emu_dor_imm`: `DOR #xxx, label`, whose loop address is relative to the
    instruction.  (The source takes the extension word before the first
    push; the push does not read the length, so the order is immaterial.) -/
def emuDorImm (s : DspCore) : DspCore :=
  (enterLoop s ((s.pc + readMemoryP s (s.pc + 1)) &&& bitmask 16)).setReg DspReg.lc
    (immCount s.curInst)

/-- `emu_dor_reg`: `DOR S, label` -/
def emuDorReg (s : DspCore) : DspCore :=
  let s := enterLoop s ((s.pc + readMemoryP s (s.pc + 1)) &&& bitmask 16)
  let (count, s) := readCountReg s (countRegField s.curInst)
  s.setReg DspReg.lc (count &&& bitmask 16)

/-- `emu_enddo`: the loop exit of `dsp_postexecute_update_pc`, written out a
    second time in the source. -/
def emuEnddo (s : DspCore) : DspCore := exitLoop s

/-- What every REP does: save `LC` in `LCSAVE` and start repeating, not
    counting the REP instruction itself. -/
def enterRep (s : DspCore) : DspCore :=
  ((s.setReg DspReg.lcsave (s.registers DspReg.lc)).setPcOnRep 1).setLoopRep 1

/-- `emu_rep_imm`: `REP #xxx` -/
def emuRepImm (s : DspCore) : DspCore :=
  (enterRep s).setReg DspReg.lc (immCount s.curInst)

/-- `emu_rep_aa`: `REP [X or Y]:aa`; the memory word is not cut to 16 bits. -/
def emuRepAa (readPeripheral : DspCore → UInt32 → UInt32) (s : DspCore) : DspCore :=
  let s := enterRep s
  s.setReg DspReg.lc (dsp56kReadMemory readPeripheral s (.ofBit ((s.curInst >>> (6 : UInt32)) &&& 1))
    ((s.curInst >>> (8 : UInt32)) &&& bitmask 6))

/-- `emu_rep_reg`: `REP S` -/
def emuRepReg (s : DspCore) : DspCore :=
  let s := enterRep s
  let (count, s) := readCountReg s (countRegField s.curInst)
  s.setReg DspReg.lc (count &&& bitmask 16)

/-- `emu_nop` -/
def emuNop (s : DspCore) : DspCore := s

/-! ## Section 3: Plain instructions and straight-line steps -/

/-- What a loop body's instruction keeps, between the state it starts from
    and the one it leaves: program memory, the system stack, the stack and
    loop registers, the REP state and the loop flag. -/
structure Frame (s t : DspCore) : Prop where
  pram : t.pram = s.pram
  stack : t.stack = s.stack
  loopRep : t.loopRep = s.loopRep
  pcOnRep : t.pcOnRep = s.pcOnRep
  sp : t.registers DspReg.sp = s.registers DspReg.sp
  ssh : t.registers DspReg.ssh = s.registers DspReg.ssh
  ssl : t.registers DspReg.ssl = s.registers DspReg.ssl
  la : t.registers DspReg.la = s.registers DspReg.la
  lc : t.registers DspReg.lc = s.registers DspReg.lc
  lcsave : t.registers DspReg.lcsave = s.registers DspReg.lcsave
  lf : t.registers DspReg.sr &&& lfBit = s.registers DspReg.sr &&& lfBit

theorem Frame.refl (s : DspCore) : Frame s s :=
  ⟨rfl, rfl, rfl, rfl, rfl, rfl, rfl, rfl, rfl, rfl, rfl⟩

theorem Frame.trans {s t u : DspCore} (h₁ : Frame s t) (h₂ : Frame t u) : Frame s u :=
  ⟨h₂.pram.trans h₁.pram, h₂.stack.trans h₁.stack, h₂.loopRep.trans h₁.loopRep,
    h₂.pcOnRep.trans h₁.pcOnRep, h₂.sp.trans h₁.sp, h₂.ssh.trans h₁.ssh, h₂.ssl.trans h₁.ssl,
    h₂.la.trans h₁.la, h₂.lc.trans h₁.lc, h₂.lcsave.trans h₁.lcsave, h₂.lf.trans h₁.lf⟩

/-- Fetching and advancing the PC touch none of the frame. -/
theorem Frame.fetch (s : DspCore) : Frame s (fetch s) :=
  ⟨rfl, rfl, rfl, rfl, rfl, rfl, rfl, rfl, rfl, rfl, rfl⟩

theorem Frame.advancePc (s : DspCore) : Frame s (advancePc s) :=
  ⟨rfl, rfl, rfl, rfl, rfl, rfl, rfl, rfl, rfl, rfl, rfl⟩

theorem Frame.setPc (s : DspCore) (v : UInt32) : Frame s (s.setPc v) :=
  ⟨rfl, rfl, rfl, rfl, rfl, rfl, rfl, rfl, rfl, rfl, rfl⟩

/-- The word `w` is a plain instruction of `len` words: fetched, it keeps
    the frame and the PC, and sets its own length. -/
def PlainAt (dispatch : UInt32 → DspCore → DspCore) (w len : UInt32) : Prop :=
  ∀ s, s.curInst = w → s.curInstLen = 1 →
    Frame s (dispatch w s) ∧ (dispatch w s).pc = s.pc ∧ (dispatch w s).curInstLen = len

/-- `NOP` is a plain one-word instruction. -/
theorem plainAt_nop (dispatch : UInt32 → DspCore → DspCore) (w : UInt32)
    (hw : dispatch w = emuNop) : PlainAt dispatch w 1 := by
  intro s _ hlen
  rw [hw]
  exact ⟨Frame.refl s, rfl, hlen⟩

/-- One instruction without the REP and loop-end tests. -/
def straightStep (dispatch : UInt32 → DspCore → DspCore) (s : DspCore) : DspCore :=
  advancePc (dispatch (fetch s).curInst (fetch s))

section steps

variable {dispatch : UInt32 → DspCore → DspCore} {s : DspCore} {len : UInt32}

/-- A plain instruction keeps the frame and moves the PC over itself. -/
theorem straightStep_spec (h : PlainAt dispatch (readMemoryP s s.pc) len) :
    Frame s (straightStep dispatch s) ∧ (straightStep dispatch s).pc = s.pc + len := by
  obtain ⟨hframe, hpc, hlen⟩ := h (fetch s) rfl rfl
  refine ⟨((Frame.fetch s).trans hframe).trans (Frame.advancePc _), ?_⟩
  simp only [straightStep, fetch_curInst, advancePc_pc, hpc, hlen, fetch_pc]

/-- Outside a REP, the REP bookkeeping leaves the state of a plain
    instruction alone. -/
theorem repUpdate_of_plain (hrep : s.loopRep = 0)
    (h : PlainAt dispatch (readMemoryP s s.pc) len) :
    repUpdate (dispatch (readMemoryP s s.pc) (fetch s)) =
      dispatch (readMemoryP s s.pc) (fetch s) := by
  have hrep' : (dispatch (readMemoryP s s.pc) (fetch s)).loopRep = 0 := by
    rw [((Frame.fetch s).trans (h (fetch s) rfl rfl).1).loopRep, hrep]
  simp [repUpdate, hrep']

/-- A plain instruction outside a REP that does not end a loop body is
    just a straight step. -/
theorem execute_of_inner (hrep : s.loopRep = 0) (h : PlainAt dispatch (readMemoryP s s.pc) len)
    (hne : s.pc + len ≠ s.registers DspReg.la + 1) :
    dsp56kExecuteInstruction dispatch s = straightStep dispatch s := by
  obtain ⟨hframe, hpc⟩ := straightStep_spec h
  have hend : (straightStep dispatch s).pc ≠
      (straightStep dispatch s).registers DspReg.la + 1 := by
    rw [hpc, hframe.la]
    exact hne
  simp only [straightStep, fetch_curInst] at hend ⊢
  simp only [dsp56kExecuteInstruction, fetch_curInst, dspPostexecuteUpdatePc,
    repUpdate_of_plain hrep h]
  rw [loopUpdate]
  by_cases hlf : (advancePc (dispatch (readMemoryP s s.pc) (fetch s))).registers DspReg.sr &&&
      lfBit ≠ 0
  · rw [if_pos hlf, if_neg hend]
  · rw [if_neg hlf]

/-- A plain instruction outside a REP that ends a running loop's body is a
    straight step followed by the loop end. -/
theorem execute_of_last (hrep : s.loopRep = 0) (h : PlainAt dispatch (readMemoryP s s.pc) len)
    (hlf : s.registers DspReg.sr &&& lfBit ≠ 0) (heq : s.pc + len = s.registers DspReg.la + 1) :
    dsp56kExecuteInstruction dispatch s = loopEnd (straightStep dispatch s) := by
  obtain ⟨hframe, hpc⟩ := straightStep_spec h
  have hend : (straightStep dispatch s).pc =
      (straightStep dispatch s).registers DspReg.la + 1 := by
    rw [hpc, hframe.la]
    exact heq
  have hlf' : (straightStep dispatch s).registers DspReg.sr &&& lfBit ≠ 0 := by
    rw [hframe.lf]
    exact hlf
  simp only [straightStep, fetch_curInst] at hend hlf' ⊢
  simp only [dsp56kExecuteInstruction, fetch_curInst, dspPostexecuteUpdatePc,
    repUpdate_of_plain hrep h]
  rw [loopUpdate, if_pos hlf', if_pos hend]

/-- Outside a REP and a DO loop, a plain instruction is just a straight
    step. -/
theorem execute_of_lf_clear (hrep : s.loopRep = 0) (h : PlainAt dispatch (readMemoryP s s.pc) len)
    (hlf : s.registers DspReg.sr &&& lfBit = 0) :
    dsp56kExecuteInstruction dispatch s = straightStep dispatch s := by
  obtain ⟨hframe, -⟩ := straightStep_spec h
  have hlf' : (straightStep dispatch s).registers DspReg.sr &&& lfBit = 0 := by
    rw [hframe.lf]
    exact hlf
  simp only [straightStep, fetch_curInst] at hlf' ⊢
  simp only [dsp56kExecuteInstruction, fetch_curInst, dspPostexecuteUpdatePc,
    repUpdate_of_plain hrep h]
  rw [loopUpdate, if_neg (not_not.mpr hlf')]

end steps

/-! ## Section 4: Loop bodies and passes -/

/-- A straight-line loop body of `k` plain instructions in program memory
    `p`: the `i`-th starts at `addr i` and ends where the next begins, and
    only the last one ends at `la + 1`. -/
structure LoopBody (dispatch : UInt32 → DspCore → DspCore) (p : Nat → UInt32)
    (addr : Nat → UInt32) (k : Nat) (la : UInt32) : Prop where
  plain : ∀ i < k, PlainAt dispatch (p (addr i).toNat) (addr (i + 1) - addr i)
  inner : ∀ i < k, addr i ≠ la + 1
  last : addr k = la + 1

/-- What stays fixed over the passes of a DO loop: the program, the body's
    start and end, the system stack with its pointer, and the saved `SR` in
    `SSL`. -/
structure LoopCtx where
  pram : Nat → UInt32
  start : UInt32
  la : UInt32
  stack : Fin 2 → Nat → UInt32
  sp : UInt32
  ssl : UInt32

/-- A state at the top of a pass: the PC on the body's start, which `SSH`
    also holds, `LF` set, no REP running, and the context in place. -/
structure LoopTop (c : LoopCtx) (v : DspCore) : Prop where
  pc : v.pc = c.start
  ssh : v.registers DspReg.ssh = c.start
  la : v.registers DspReg.la = c.la
  lf : v.registers DspReg.sr &&& lfBit ≠ 0
  loopRep : v.loopRep = 0
  pram : v.pram = c.pram
  stack : v.stack = c.stack
  sp : v.registers DspReg.sp = c.sp
  ssl : v.registers DspReg.ssl = c.ssl

/-- A frame-keeping run from the top of a pass stays in the loop's context. -/
theorem LoopTop.of_frame {c : LoopCtx} {v u : DspCore} (hv : LoopTop c v) (hf : Frame v u) :
    u.registers DspReg.ssh = c.start ∧ u.registers DspReg.la = c.la ∧
      u.registers DspReg.sr &&& lfBit ≠ 0 ∧ u.loopRep = 0 ∧ u.pram = c.pram ∧
      u.stack = c.stack ∧ u.registers DspReg.sp = c.sp ∧ u.registers DspReg.ssl = c.ssl := by
  refine ⟨?_, ?_, ?_, ?_, ?_, ?_, ?_, ?_⟩
  · rw [hf.ssh, hv.ssh]
  · rw [hf.la, hv.la]
  · rw [hf.lf]; exact hv.lf
  · rw [hf.loopRep, hv.loopRep]
  · rw [hf.pram, hv.pram]
  · rw [hf.stack, hv.stack]
  · rw [hf.sp, hv.sp]
  · rw [hf.ssl, hv.ssl]

/-- One pass over the body from the top of the loop, ending with the
    loop-end test. -/
def pass (dispatch : UInt32 → DspCore → DspCore) (k : Nat) (v : DspCore) : DspCore :=
  loopEnd ((straightStep dispatch)^[k] v)

section passes

variable {dispatch : UInt32 → DspCore → DspCore} {addr : Nat → UInt32} {k : Nat}
  {c : LoopCtx}

/-- The straight run over the body: after `i` instructions the frame is
    kept and the PC is on the `i`-th address. -/
theorem straight_run (hb : LoopBody dispatch c.pram addr k c.la) (v : DspCore)
    (hpc : v.pc = addr 0) (hp : v.pram = c.pram) :
    ∀ i ≤ k, Frame v ((straightStep dispatch)^[i] v) ∧
      ((straightStep dispatch)^[i] v).pc = addr i := by
  intro i
  induction i with
  | zero => intro _; exact ⟨Frame.refl v, hpc⟩
  | succ i ih =>
    intro hi
    obtain ⟨hframe, hpci⟩ := ih (by omega)
    have hplain : PlainAt dispatch (readMemoryP ((straightStep dispatch)^[i] v)
        ((straightStep dispatch)^[i] v).pc) (addr (i + 1) - addr i) := by
      rw [readMemoryP, hpci, hframe.pram, hp]
      exact hb.plain i (by omega)
    obtain ⟨hf, hpc'⟩ := straightStep_spec hplain
    rw [Function.iterate_succ_apply']
    refine ⟨hframe.trans hf, ?_⟩
    rw [hpc', hpci]
    abel

/-- Inside a pass the instructions are straight steps. -/
theorem execute_eq_straight (hb : LoopBody dispatch c.pram addr k c.la)
    (hstart : addr 0 = c.start) (v : DspCore) (hv : LoopTop c v) :
    ∀ i < k, (dsp56kExecuteInstruction dispatch)^[i] v = (straightStep dispatch)^[i] v := by
  intro i
  induction i with
  | zero => intro _; rfl
  | succ i ih =>
    intro hi
    have hrun := straight_run hb v (hv.pc.trans hstart.symm) hv.pram i (by omega)
    obtain ⟨hframe, hpci⟩ := hrun
    obtain ⟨-, hla, -, hrep, hp, -⟩ := hv.of_frame hframe
    have hplain : PlainAt dispatch (readMemoryP ((straightStep dispatch)^[i] v)
        ((straightStep dispatch)^[i] v).pc) (addr (i + 1) - addr i) := by
      rw [readMemoryP, hpci, hp]
      exact hb.plain i (by omega)
    have hne : ((straightStep dispatch)^[i] v).pc + (addr (i + 1) - addr i) ≠
        ((straightStep dispatch)^[i] v).registers DspReg.la + 1 := by
      rw [hpci, hla, add_sub_cancel]
      exact hb.inner (i + 1) hi
    rw [Function.iterate_succ_apply', Function.iterate_succ_apply', ih (by omega),
      execute_of_inner hrep hplain hne]

/-- A whole pass: `k` instructions from the top of the loop are the
    straight run followed by the loop-end test. -/
theorem execute_pass (hb : LoopBody dispatch c.pram addr k c.la) (hk : 0 < k)
    (hstart : addr 0 = c.start) (v : DspCore) (hv : LoopTop c v) :
    (dsp56kExecuteInstruction dispatch)^[k] v = pass dispatch k v := by
  obtain ⟨j, rfl⟩ : ∃ j, k = j + 1 := ⟨k - 1, by omega⟩
  obtain ⟨hframe, hpcj⟩ := straight_run hb v (hv.pc.trans hstart.symm) hv.pram j (by omega)
  obtain ⟨-, hla, hlf, hrep, hp, -⟩ := hv.of_frame hframe
  have hplain : PlainAt dispatch (readMemoryP ((straightStep dispatch)^[j] v)
      ((straightStep dispatch)^[j] v).pc) (addr (j + 1) - addr j) := by
    rw [readMemoryP, hpcj, hp]
    exact hb.plain j (by omega)
  have hend : ((straightStep dispatch)^[j] v).pc + (addr (j + 1) - addr j) =
      ((straightStep dispatch)^[j] v).registers DspReg.la + 1 := by
    rw [hpcj, hla, add_sub_cancel]
    exact hb.last
  rw [Function.iterate_succ_apply', execute_eq_straight hb hstart v hv j (by omega),
    execute_of_last hrep hplain hlf hend, pass, Function.iterate_succ_apply']

end passes

/-! ## Section 5: Counting the passes -/

section counting

variable {dispatch : UInt32 → DspCore → DspCore} {addr : Nat → UInt32} {k : Nat}
  {c : LoopCtx}

/-- A pass that leaves `LC` above zero returns to the top of the loop with
    `LC` one less. -/
theorem pass_continue (hb : LoopBody dispatch c.pram addr k c.la) (hstart : addr 0 = c.start)
    (v : DspCore) (hv : LoopTop c v) (hlc : (v.registers DspReg.lc - 1) &&& bitmask 16 ≠ 0) :
    LoopTop c (pass dispatch k v) ∧
      (pass dispatch k v).registers DspReg.lc = (v.registers DspReg.lc - 1) &&& bitmask 16 := by
  obtain ⟨hframe, -⟩ := straight_run hb v (hv.pc.trans hstart.symm) hv.pram k le_rfl
  obtain ⟨hssh, hla, hlf, hrep, hp, hstk, hsp, hssl⟩ := hv.of_frame hframe
  have hne : ((straightStep dispatch)^[k] v).registers DspReg.lc - 1 &&& bitmask 16 ≠ 0 := by
    rw [hframe.lc]
    exact hlc
  simp only [pass, loopEnd, DspCore.setReg_registers, Function.update_self, hne, if_false]
  refine ⟨⟨?_, ?_, ?_, ?_, ?_, ?_, ?_, ?_, ?_⟩, ?_⟩ <;>
    simp [hssh, hla, hlf, hrep, hp, hstk, hsp, hssl, hframe.lc]

/-- The pass that brings `LC` to zero leaves the loop. -/
theorem pass_exit (v : DspCore) (hframe : Frame v ((straightStep dispatch)^[k] v))
    (hlc : (v.registers DspReg.lc - 1) &&& bitmask 16 = 0) :
    pass dispatch k v = exitLoop (((straightStep dispatch)^[k] v).setReg DspReg.lc 0) := by
  have hz : ((straightStep dispatch)^[k] v).registers DspReg.lc - 1 &&& bitmask 16 = 0 := by
    rw [hframe.lc]
    exact hlc
  simp only [pass, loopEnd, DspCore.setReg_registers, Function.update_self, hz, if_true]

/-- The passes of a DO loop whose top holds `LC = (r + 1) mod 65536`: it
    makes exactly `r + 1` passes, each starting at the top of the loop, and
    the last leaves the loop. The induction is on `r`, the passes after the
    first. -/
theorem passes_run (hb : LoopBody dispatch c.pram addr k c.la) (hk : 0 < k)
    (hstart : addr 0 = c.start) (r : Nat) :
    ∀ v, LoopTop c v → r < 65536 → (v.registers DspReg.lc).toNat = (r + 1) % 65536 →
      (∀ j ≤ r, LoopTop c ((pass dispatch k)^[j] v) ∧
        (dsp56kExecuteInstruction dispatch)^[j * k] v = (pass dispatch k)^[j] v) ∧
      (dsp56kExecuteInstruction dispatch)^[(r + 1) * k] v =
        exitLoop (((straightStep dispatch)^[k] ((pass dispatch k)^[r] v)).setReg DspReg.lc 0) := by
  induction r with
  | zero =>
    intro v hv _ hlc
    have hone : (v.registers DspReg.lc - 1) &&& bitmask 16 = 0 := by
      apply UInt32.toNat_inj.mp
      rw [toNat_sub_one_and_bitmask 16 (by norm_num) _ 0 (by norm_num) hlc]
      rfl
    obtain ⟨hframe, -⟩ := straight_run hb v (hv.pc.trans hstart.symm) hv.pram k le_rfl
    refine ⟨fun j hj => ?_, ?_⟩
    · obtain rfl : j = 0 := by omega
      exact ⟨hv, by simp⟩
    · rw [Nat.zero_add, Nat.one_mul, execute_pass hb hk hstart v hv, pass_exit v hframe hone]
      rfl
  | succ r ih =>
    intro v hv hr hlc
    have hcount : ((v.registers DspReg.lc - 1) &&& bitmask 16).toNat = r + 1 :=
      toNat_sub_one_and_bitmask 16 (by norm_num) _ (r + 1) (by omega) hlc
    have hne : (v.registers DspReg.lc - 1) &&& bitmask 16 ≠ 0 := by
      intro h
      rw [h] at hcount
      simp at hcount
    obtain ⟨htop, hlc'⟩ := pass_continue hb hstart v hv hne
    have hlcu : ((pass dispatch k v).registers DspReg.lc).toNat = (r + 1) % 65536 := by
      rw [hlc', hcount, Nat.mod_eq_of_lt (by omega)]
    obtain ⟨hpasses, hlast⟩ := ih (pass dispatch k v) htop (by omega) hlcu
    have hfirst := execute_pass hb hk hstart v hv
    refine ⟨fun j hj => ?_, ?_⟩
    · rcases j with _ | j
      · exact ⟨hv, by simp⟩
      · obtain ⟨htopj, hexecj⟩ := hpasses j (by omega)
        rw [Function.iterate_succ_apply]
        refine ⟨htopj, ?_⟩
        rw [Nat.succ_mul, Function.iterate_add_apply, hfirst, hexecj]
    · rw [Nat.succ_mul, Function.iterate_add_apply, hfirst, hlast, Function.iterate_succ_apply]

end counting

/-! ## Section 6: Entering and leaving a DO loop -/

theorem lfBit_or_ne (x : UInt32) : (x ||| lfBit) &&& lfBit ≠ 0 := by
  rw [or_and_self_right]
  decide

theorem and_bitmask16_lfBit (x : UInt32) : (x &&& bitmask 16) &&& lfBit = x &&& lfBit := by
  rw [UInt32.and_assoc]
  rfl

/-- The loop exit's `SR` carries the saved loop flag: the kept bits 0..6
    do not reach `LF`. -/
theorem exitSr_lf (x y : UInt32) : ((x &&& 0x7f) ||| (y &&& lfBit)) &&& lfBit = y &&& lfBit :=
  and_or_and_mask x y 0x7f lfBit (by decide)

/-- Outside a REP, an instruction that does not end a loop body only moves
    the PC on. -/
theorem postexecute_of_no_end (X : DspCore) (hrep : X.loopRep = 0)
    (hend : X.registers DspReg.sr &&& lfBit ≠ 0 → X.pc + X.curInstLen ≠ X.registers DspReg.la + 1) :
    dspPostexecuteUpdatePc X = advancePc X := by
  by_cases hlf : X.registers DspReg.sr &&& lfBit = 0
  · simp [dspPostexecuteUpdatePc, repUpdate, hrep, loopUpdate, advancePc, hlf]
  · simp [dspPostexecuteUpdatePc, repUpdate, hrep, loopUpdate, advancePc, hend hlf]

/-- Leaving a loop (the last pass, or ENDDO) on a stack whose top two levels
    hold the loop context: `SP` drops by two, `LA:LC` come from the lower
    level, `SSH:SSL` show the level below it, and `SR` keeps only its bits
    0..6 with `LF` taken from the `SR` saved in `SSL`. -/
theorem exitLoop_spec (T : DspCore) (hsp : SpClean (T.registers DspReg.sp))
    (hlevel : 2 ≤ stackLevel T) :
    (exitLoop T).pc = T.pc ∧ (exitLoop T).pram = T.pram ∧ (exitLoop T).loopRep = T.loopRep ∧
    (exitLoop T).curInstLen = T.curInstLen ∧ (exitLoop T).stack = T.stack ∧
    (exitLoop T).registers DspReg.sp = T.registers DspReg.sp - 1 - 1 ∧
    (exitLoop T).registers DspReg.la = T.stack 0 (stackLevel T - 1) ∧
    (exitLoop T).registers DspReg.lc = T.stack 1 (stackLevel T - 1) ∧
    (exitLoop T).registers DspReg.sr =
      (T.registers DspReg.sr &&& 0x7f) ||| (T.registers DspReg.ssl &&& lfBit) ∧
    (exitLoop T).registers DspReg.ssh = T.stack 0 (stackLevel T - 2) ∧
    (exitLoop T).registers DspReg.ssl = T.stack 1 (stackLevel T - 2) := by
  have h1 : 0 < stackLevel T := by omega
  obtain ⟨hsp1, hl1⟩ := spClean_pred _ hsp h1
  -- the state after the first pop and the update of SR
  let T3 := ((((T.setReg DspReg.sp (T.registers DspReg.sp - 1)).setReg DspReg.ssh
      (T.stack 0 (stackLevel T - 1))).setReg DspReg.ssl (T.stack 1 (stackLevel T - 1))).setReg
      DspReg.sr (T.registers DspReg.sr &&& 0x7f)).setReg DspReg.sr
      ((T.registers DspReg.sr &&& 0x7f) ||| (T.registers DspReg.ssl &&& lfBit))
  have hT : exitLoop T =
      (((dspStackPop T3).2.2.setReg DspReg.la (dspStackPop T3).1).setReg DspReg.lc
        (dspStackPop T3).2.1) := by
    simp only [exitLoop, dspStackPop_of_level T hsp h1]
    simp [T3]
  have hsp3 : SpClean (T3.registers DspReg.sp) := by simpa [T3] using hsp1
  have hl3 : stackLevel T3 = stackLevel T - 1 := by
    simp (disch := decide) only [T3, stackLevel_setReg, stackLevel_setReg_sp]
    exact hl1
  rw [hT, dspStackPop_of_level T3 hsp3 (by omega), hl3]
  simp [T3, Nat.sub_sub]

/-- The state `e` that a DO fetched in state `s` leaves, for a loop ending
    at `la` and counting `count`: the top of its first pass, with `LA:LC`
    and then the body's start and `SR` pushed. -/
structure Entered (s : DspCore) (la count : UInt32) (e : DspCore) : Prop where
  top : LoopTop ⟨s.pram, s.pc + 2, la, e.stack, e.registers DspReg.sp,
    e.registers DspReg.ssl⟩ e
  lc : e.registers DspReg.lc = count
  sp : e.registers DspReg.sp = s.registers DspReg.sp + 1 + 1
  spClean : SpClean (e.registers DspReg.sp)
  level : stackLevel e = stackLevel s + 2
  savedLa : e.stack 0 (stackLevel s + 1) = s.registers DspReg.la &&& bitmask 16
  savedLc : e.stack 1 (stackLevel s + 1) = s.registers DspReg.lc &&& bitmask 16
  savedSr : e.registers DspReg.ssl = s.registers DspReg.sr &&& bitmask 16

/-- The shared part of the DO variants, `enterLoop` and then the count in
    `LC`, followed by the PC update, enters the loop: on a stack with room
    for two levels, from a PC whose body start fits 16 bits, with a
    non-empty body. -/
theorem enterLoop_entered (s : DspCore) (la count : UInt32) (hrep : s.loopRep = 0)
    (hsp : SpClean (s.registers DspReg.sp)) (hroom : stackLevel s ≤ 13)
    (hfit : (s.pc + 2).toNat < 2 ^ 16) (hne : s.pc + 2 ≠ la + 1) :
    Entered s la count
      (dspPostexecuteUpdatePc ((enterLoop (fetch s) la).setReg DspReg.lc count)) := by
  obtain ⟨hsp1, hl1⟩ := spClean_succ _ hsp (by unfold stackLevel at hroom; omega)
  obtain ⟨hsp2, hl2⟩ := spClean_succ _ hsp1 (by unfold stackLevel at hroom; omega)
  have hl1' : ((s.registers DspReg.sp + 1) &&& bitmask 4).toNat = stackLevel s + 1 := hl1
  have hl2' : ((s.registers DspReg.sp + 1 + 1) &&& bitmask 4).toNat = stackLevel s + 2 := by
    rw [hl2, hl1']
  -- the first push, of LA:LC
  have e1 := dspStackPush_of_room (fetch s) ((fetch s).registers DspReg.la)
    ((fetch s).registers DspReg.lc) hsp (by rw [stackLevel_fetch]; omega)
  simp only [enterLoop]
  -- the second push, of the body's start and SR
  rw [e1, dspStackPush_of_room _ _ _ ?hsp2 ?hroom2]
  case hsp2 => simpa using hsp1
  case hroom2 =>
    simp (disch := decide) only [stackLevel_setCurInstLen, stackLevel_setReg, stackLevel_setStack,
      stackLevel_setReg_sp, fetch_registers]
    omega
  rw [postexecute_of_no_end _ ?hrep ?hend]
  case hrep => simpa using hrep
  case hend => exact fun _ => by simpa using hne
  have hfit' : s.pc + 2 &&& bitmask 16 = s.pc + 2 := by
    apply UInt32.toNat_inj.mp
    rw [toNat_and_bitmask _ _ (by norm_num), Nat.mod_eq_of_lt hfit]
  refine ⟨⟨?_, ?_, ?_, ?_, ?_, ?_, ?_, ?_, ?_⟩, ?_, ?_, ?_, ?_, ?_, ?_, ?_⟩
  all_goals simp [advancePc, hfit', hl1', hl2', hsp2, lfBit_or_ne, hrep, -UInt32.toNat_and]

/-- The number of passes a loop count stands for: 0 means 65536. -/
def loopPasses (lc : UInt32) : Nat := if lc = 0 then 65536 else lc.toNat

/-- A 16-bit count stands for between 1 and 65536 passes, and is that
    number modulo 65536. -/
theorem loopPasses_spec (lc : UInt32) (h : lc.toNat < 65536) :
    0 < loopPasses lc ∧ loopPasses lc ≤ 65536 ∧ lc.toNat = loopPasses lc % 65536 := by
  unfold loopPasses
  split_ifs with h0
  · simp [h0]
  · have hne : lc.toNat ≠ 0 := fun h' => h0 (UInt32.toNat_inj.mp (by simpa using h'))
    refine ⟨by omega, by omega, ?_⟩
    rw [Nat.mod_eq_of_lt h]

/-- A DO loop run from the state its DO left: the body is run exactly
    `loopPasses count` times, every pass starting at the body's start; then
    the PC is on `la + 1`, `SP`, `LA`, `LC` and `SR.LF` are as before the
    DO, and the rest of `SR` is the body's last `SR` masked with `0x7f`. -/
theorem doLoop_run_of_entered {dispatch : UInt32 → DspCore → DspCore} {s e : DspCore}
    {la count : UInt32} {addr : Nat → UInt32} {k : Nat} (hent : Entered s la count e)
    (hb : LoopBody dispatch s.pram addr k la) (hk : 0 < k) (hstart : addr 0 = s.pc + 2)
    (hcount : count.toNat < 65536) :
    (∀ j < loopPasses count, ((dsp56kExecuteInstruction dispatch)^[j * k] e).pc = s.pc + 2) ∧
    let T := (straightStep dispatch)^[k] ((pass dispatch k)^[loopPasses count - 1] e)
    let F := (dsp56kExecuteInstruction dispatch)^[loopPasses count * k] e
    F.pc = la + 1 ∧ F.registers DspReg.sp = s.registers DspReg.sp ∧
      F.registers DspReg.la = s.registers DspReg.la &&& bitmask 16 ∧
      F.registers DspReg.lc = s.registers DspReg.lc &&& bitmask 16 ∧
      F.registers DspReg.sr = (T.registers DspReg.sr &&& 0x7f) ||| (s.registers DspReg.sr &&& lfBit) := by
  obtain ⟨hpos, hle, hmod⟩ := loopPasses_spec count hcount
  have hlc : (e.registers DspReg.lc).toNat = (loopPasses count - 1 + 1) % 65536 := by
    rw [hent.lc, Nat.sub_add_cancel hpos, hmod]
  have hlt : loopPasses count - 1 < 65536 := by omega
  obtain ⟨hpasses, hlast⟩ := passes_run hb hk hstart (loopPasses count - 1) e hent.top hlt hlc
  refine ⟨fun j hj => ?_, ?_⟩
  · obtain ⟨htop, hexec⟩ := hpasses j (by omega)
    rw [hexec, htop.pc]
  -- the last pass ends with the loop exit, from the stack the DO built
  obtain ⟨htop, -⟩ := hpasses (loopPasses count - 1) le_rfl
  obtain ⟨hframe, hpcT⟩ :=
    straight_run hb _ (htop.pc.trans hstart.symm) htop.pram k le_rfl
  obtain ⟨-, -, -, -, -, hstk, hsp, hssl⟩ := htop.of_frame hframe
  dsimp only
  rw [show loopPasses count * k = (loopPasses count - 1 + 1) * k by rw [Nat.sub_add_cancel hpos],
    hlast]
  set T := (straightStep dispatch)^[k] ((pass dispatch k)^[loopPasses count - 1] e) with hT
  have hlevel : stackLevel (T.setReg DspReg.lc 0) = stackLevel s + 2 := by
    rw [stackLevel_setReg _ (by decide), stackLevel, hsp, ← hent.level]
    rfl
  obtain ⟨hpc, -, -, -, -, hspF, hlaF, hlcF, hsrF, -, -⟩ :=
    exitLoop_spec (T.setReg DspReg.lc 0) (by simpa [hsp] using hent.spClean) (by omega)
  rw [hpc, hspF, hlaF, hlcF, hsrF, hlevel]
  simp only [DspCore.setReg_pc, DspCore.setReg_stack, DspCore.setReg_registers,
    Function.update_of_ne (show DspReg.sp ≠ DspReg.lc by decide),
    Function.update_of_ne (show DspReg.sr ≠ DspReg.lc by decide),
    Function.update_of_ne (show DspReg.ssl ≠ DspReg.lc by decide), hstk, hsp, hssl, hpcT, hb.last]
  refine ⟨trivial, ?_, ?_, ?_, ?_⟩
  · rw [hent.sp]
    abel
  · rw [show stackLevel s + 2 - 1 = stackLevel s + 1 by omega, hent.savedLa]
  · rw [show stackLevel s + 2 - 1 = stackLevel s + 1 by omega, hent.savedLc]
  · rw [hent.savedSr, and_bitmask16_lfBit]

/-- The count of `DO #xxx` has twelve bits. -/
theorem immCount_lt (w : UInt32) : (immCount w).toNat < 4096 := by
  have h1 : ((w >>> (8 : UInt32)) &&& bitmask 8).toNat < 256 := by
    rw [toNat_and_bitmask _ _ (by norm_num)]
    exact Nat.mod_lt _ (by norm_num)
  have h2 : (w &&& bitmask 4).toNat < 16 := by
    rw [toNat_and_bitmask _ _ (by norm_num)]
    exact Nat.mod_lt _ (by norm_num)
  have h3 : ((w &&& bitmask 4) <<< (8 : UInt32)).toNat = (w &&& bitmask 4).toNat * 256 := by
    rw [UInt32.toNat_shiftLeft]
    simp only [UInt32.reduceToNat, Nat.reduceMod, Nat.shiftLeft_eq]
    omega
  rw [immCount, UInt32.toNat_add, h3]
  omega

/-- `DO #xxx, expr` enters its loop, ending at the extension word and
    counting the immediate. -/
theorem execute_doImm_entered {dispatch : UInt32 → DspCore → DspCore} {s : DspCore}
    (hdo : dispatch (readMemoryP s s.pc) = emuDoImm) (hrep : s.loopRep = 0)
    (hsp : SpClean (s.registers DspReg.sp)) (hroom : stackLevel s ≤ 13)
    (hfit : (s.pc + 2).toNat < 2 ^ 16)
    (hne : s.pc + 2 ≠ (readMemoryP s (s.pc + 1) &&& bitmask 16) + 1) :
    Entered s (readMemoryP s (s.pc + 1) &&& bitmask 16) (immCount (readMemoryP s s.pc))
      (dsp56kExecuteInstruction dispatch s) := by
  have hstep : dsp56kExecuteInstruction dispatch s =
      dspPostexecuteUpdatePc ((enterLoop (fetch s) (readMemoryP s (s.pc + 1) &&& bitmask 16)).setReg
        DspReg.lc (immCount (readMemoryP s s.pc))) := by
    simp only [dsp56kExecuteInstruction, fetch_curInst, hdo, emuDoImm]
    rfl
  rw [hstep]
  exact enterLoop_entered s _ _ hrep hsp hroom hfit hne

/-- A `DO #xxx, expr` loop over a straight-line body of `k` plain
    instructions, from a stack with room for its two levels: the body runs
    exactly `loopPasses count` times (65536 for a count of 0), each pass
    starting at the body's start; then the PC is on `LA + 1`, and `SP`,
    `LA`, `LC` and `SR.LF` are as before the DO, while the other bits of
    `SR` are those the body left, masked with `0x7f`. -/
theorem doLoop_run (dispatch : UInt32 → DspCore → DspCore) (s : DspCore) (addr : Nat → UInt32)
    (k : Nat) (hdo : dispatch (readMemoryP s s.pc) = emuDoImm) (hrep : s.loopRep = 0)
    (hsp : SpClean (s.registers DspReg.sp)) (hroom : stackLevel s ≤ 13)
    (hfit : (s.pc + 2).toNat < 2 ^ 16)
    (hb : LoopBody dispatch s.pram addr k (readMemoryP s (s.pc + 1) &&& bitmask 16))
    (hk : 0 < k) (hstart : addr 0 = s.pc + 2) :
    let n := loopPasses (immCount (readMemoryP s s.pc))
    (∀ j < n, ((dsp56kExecuteInstruction dispatch)^[j * k + 1] s).pc = s.pc + 2) ∧
    let T := (straightStep dispatch)^[k] ((pass dispatch k)^[n - 1]
      (dsp56kExecuteInstruction dispatch s))
    let F := (dsp56kExecuteInstruction dispatch)^[n * k + 1] s
    F.pc = (readMemoryP s (s.pc + 1) &&& bitmask 16) + 1 ∧
      F.registers DspReg.sp = s.registers DspReg.sp ∧
      F.registers DspReg.la = s.registers DspReg.la &&& bitmask 16 ∧
      F.registers DspReg.lc = s.registers DspReg.lc &&& bitmask 16 ∧
      F.registers DspReg.sr = (T.registers DspReg.sr &&& 0x7f) ||| (s.registers DspReg.sr &&& lfBit) := by
  have hne : s.pc + 2 ≠ (readMemoryP s (s.pc + 1) &&& bitmask 16) + 1 := by
    rw [← hstart]
    exact hb.inner 0 hk
  have hent := execute_doImm_entered hdo hrep hsp hroom hfit hne
  have hcount : (immCount (readMemoryP s s.pc)).toNat < 65536 := by
    have := immCount_lt (readMemoryP s s.pc)
    omega
  obtain ⟨hpasses, hexit⟩ := doLoop_run_of_entered hent hb hk hstart hcount
  simp only [Function.iterate_succ_apply]
  exact ⟨hpasses, hexit⟩

/-- `ENDDO` inside a DO loop, after any frame-keeping instructions of the
    body: the loop is left at once, to the next instruction, with `SP`,
    `LA`, `LC` and `SR.LF` as before the DO and the other bits of `SR`
    masked with `0x7f`, as at the loop's normal end.  The hypothesis
    excludes the end test of an enclosing loop. -/
theorem enddo_restores {dispatch : UInt32 → DspCore → DspCore} {s e T : DspCore}
    {la count : UInt32} (hent : Entered s la count e) (hframe : Frame e T)
    (hdisp : dispatch (readMemoryP T T.pc) = emuEnddo)
    (hout : s.registers DspReg.sr &&& lfBit ≠ 0 →
      T.pc + 1 ≠ (s.registers DspReg.la &&& bitmask 16) + 1) :
    let F := dsp56kExecuteInstruction dispatch T
    F.pc = T.pc + 1 ∧ F.registers DspReg.sp = s.registers DspReg.sp ∧
      F.registers DspReg.la = s.registers DspReg.la &&& bitmask 16 ∧
      F.registers DspReg.lc = s.registers DspReg.lc &&& bitmask 16 ∧
      F.registers DspReg.sr =
        (T.registers DspReg.sr &&& 0x7f) ||| (s.registers DspReg.sr &&& lfBit) := by
  -- the stack the DO built is still in place under the body's instructions
  have hsp : (fetch T).registers DspReg.sp = e.registers DspReg.sp := hframe.sp
  have hlevel : stackLevel (fetch T) = stackLevel s + 2 := by
    rw [stackLevel_fetch, stackLevel, hframe.sp, ← hent.level]
    rfl
  have hstk : (fetch T).stack = e.stack := hframe.stack
  have hssl : (fetch T).registers DspReg.ssl = e.registers DspReg.ssl := hframe.ssl
  obtain ⟨hpc, -, hrep, hlen, -, hspF, hlaF, hlcF, hsrF, -, -⟩ :=
    exitLoop_spec (fetch T) (by rw [hsp]; exact hent.spClean) (by omega)
  have hlv : stackLevel s + 2 - 1 = stackLevel s + 1 := by omega
  rw [hlevel, hlv, hstk, hent.savedLa] at hlaF
  rw [hlevel, hlv, hstk, hent.savedLc] at hlcF
  rw [hssl, hent.savedSr, and_bitmask16_lfBit] at hsrF
  have hrep0 : (exitLoop (fetch T)).loopRep = 0 := by
    rw [hrep, fetch_loopRep, hframe.loopRep, hent.top.loopRep]
  have hend : (exitLoop (fetch T)).registers DspReg.sr &&& lfBit ≠ 0 →
      (exitLoop (fetch T)).pc + (exitLoop (fetch T)).curInstLen ≠
        (exitLoop (fetch T)).registers DspReg.la + 1 := by
    intro hlf
    rw [hsrF, exitSr_lf] at hlf
    rw [hpc, hlen, hlaF]
    exact hout hlf
  have hstep : dsp56kExecuteInstruction dispatch T = advancePc (exitLoop (fetch T)) := by
    simp only [dsp56kExecuteInstruction, fetch_curInst, hdisp, emuEnddo]
    exact postexecute_of_no_end _ hrep0 hend
  dsimp only
  rw [hstep]
  simp only [advancePc, DspCore.setPc_pc, DspCore.setPc_registers]
  refine ⟨by rw [hpc, hlen]; rfl, ?_, hlaF, hlcF, hsrF⟩
  rw [hspF, hsp, hent.sp]
  abel

/-- The program `DO #1,end; NOP; end:` at address 0, with the interrupt
    mask `I1:I0 = 11` set in `SR`. -/
def doProbe : DspCore where
  pc := 0
  registers := fun r => if r = DspReg.sr then 0x0300 else 0
  stack := fun _ _ => 0
  xram := fun _ => 0
  yram := fun _ => 0
  pram := fun a => if a = 0 then 0x060180 else if a = 1 then 2 else 0
  pramOpcache := fun _ => none
  mixbuffer := fun _ => 0
  loopRep := 0
  pcOnRep := 0
  interruptCounter := 0
  interruptIpl := fun _ => 0
  interruptIsPending := fun _ => 0
  curInstLen := 0
  curInst := 0

/-- The decoding of the probe's two words: `0x060180` is `DO #1`, the rest
    `NOP`. -/
def doProbeDispatch (w : UInt32) : DspCore → DspCore :=
  if w = 0x060180 then emuDoImm else emuNop

/-- The one-pass loop of `doProbe` ends on address 3 with the interrupt
    mask the DO found in `SR`, which its body never touched, cleared. -/
theorem doLoop_clears_interrupt_mask :
    doProbe.registers DspReg.sr = 0x0300 ∧
      ((dsp56kExecuteInstruction doProbeDispatch)^[2] doProbe).pc = 3 ∧
      ((dsp56kExecuteInstruction doProbeDispatch)^[2] doProbe).registers DspReg.sr = 0 := by
  decide

/-! ## Section 7: REP -/

/-- A state inside a REP, after the REP instruction itself: the PC on the
    repeated instruction at `a`, with `LCSAVE`, `LA`, `SR.LF` and the
    program fixed. -/
structure Repeating (a lcsave la lf : UInt32) (p : Nat → UInt32) (u : DspCore) : Prop where
  pc : u.pc = a
  loopRep : u.loopRep = 1
  pcOnRep : u.pcOnRep = 0
  lcsave : u.registers DspReg.lcsave = lcsave
  la : u.registers DspReg.la = la
  lf : u.registers DspReg.sr &&& lfBit = lf
  pram : u.pram = p

/-- The REP counter: `LC = (LC - 1) & BITMASK(16)` from `r + 1 ≤ 65536`
    reaches `r`. -/
theorem rep_countdown (x : UInt32) (r : Nat) (hr : r < 65536) (hx : x.toNat = r + 1) :
    ((x - 1) &&& bitmask 16).toNat = r := by
  rw [toNat_and_bitmask _ _ (by norm_num), UInt32.toNat_sub, hx]
  simp only [UInt32.reduceToNat]
  omega

section repeating

variable {dispatch : UInt32 → DspCore → DspCore} {a lcsave la lf len : UInt32}
  {p : Nat → UInt32}

/-- One execution of the repeated instruction: `LC` counts down; above zero
    the PC stays, at zero `LC` is restored from `LCSAVE`, the REP ends and
    the PC moves past the instruction. -/
theorem rep_step (hplain : PlainAt dispatch (p a.toNat) len)
    (hlf : lf ≠ 0 → a ≠ la + 1 ∧ a + len ≠ la + 1) (u : DspCore)
    (hu : Repeating a lcsave la lf p u) (r : Nat) (hr : r < 65536)
    (hlc : (u.registers DspReg.lc).toNat = r + 1) :
    (r ≠ 0 → Repeating a lcsave la lf p (dsp56kExecuteInstruction dispatch u) ∧
      ((dsp56kExecuteInstruction dispatch u).registers DspReg.lc).toNat = r) ∧
    (r = 0 → (dsp56kExecuteInstruction dispatch u).pc = a + len ∧
      (dsp56kExecuteInstruction dispatch u).registers DspReg.lc = lcsave ∧
      (dsp56kExecuteInstruction dispatch u).loopRep = 0) := by
  have hw : readMemoryP u u.pc = p a.toNat := by rw [readMemoryP, hu.pc, hu.pram]
  obtain ⟨hframe, hpc, hlen⟩ := hplain (fetch u) (by rw [fetch_curInst, hw]) rfl
  have hframe' := (Frame.fetch u).trans hframe
  have hexec : dsp56kExecuteInstruction dispatch u =
      dspPostexecuteUpdatePc (dispatch (p a.toNat) (fetch u)) := by
    simp only [dsp56kExecuteInstruction, fetch_curInst, hw]
  have hcount := rep_countdown ((dispatch (p a.toNat) (fetch u)).registers DspReg.lc) r hr
    (by rw [hframe'.lc]; exact hlc)
  have hlfY : (dispatch (p a.toNat) (fetch u)).registers DspReg.sr &&& lfBit = lf := by
    rw [hframe'.lf, hu.lf]
  -- the repeated instruction leaves every REP register it does not own alone
  have hY1 : (dispatch (p a.toNat) (fetch u)).loopRep = 1 := by rw [hframe'.loopRep, hu.loopRep]
  have hY0 : (dispatch (p a.toNat) (fetch u)).pcOnRep = 0 := by rw [hframe'.pcOnRep, hu.pcOnRep]
  have hYs : (dispatch (p a.toNat) (fetch u)).registers DspReg.lcsave = lcsave := by
    rw [hframe'.lcsave, hu.lcsave]
  have hYa : (dispatch (p a.toNat) (fetch u)).registers DspReg.la = la := by
    rw [hframe'.la, hu.la]
  have hYp : (dispatch (p a.toNat) (fetch u)).pram = p := by rw [hframe'.pram, hu.pram]
  rw [hexec]
  refine ⟨fun hr0 => ?_, fun hr0 => ?_⟩
  · -- above zero: the PC stays on the instruction
    have hpos : 0 < (dispatch (p a.toNat) (fetch u)).registers DspReg.lc - 1 &&& bitmask 16 := by
      rw [UInt32.lt_iff_toNat_lt, hcount]
      simpa using Nat.pos_of_ne_zero hr0
    have hstay : a ≠ la + 1 ∨ lf = 0 := by
      by_cases h : lf = 0
      · exact Or.inr h
      · exact Or.inl (hlf h).1
    simp only [dspPostexecuteUpdatePc, repUpdate, hframe'.loopRep, hu.loopRep, hframe'.pcOnRep,
      hu.pcOnRep, DspCore.setReg_registers, Function.update_self, hpos, ne_eq, if_true]
    refine ⟨⟨?_, ?_, ?_, ?_, ?_, ?_, ?_⟩, ?_⟩
    all_goals
      rcases hstay with h | h <;>
        simp [h, loopUpdate, advancePc, hpc, hu.pc, hYs, hYa, hlfY, hYp, hY1, hY0, hcount]
  · -- at zero: the REP ends
    have hzero : (dispatch (p a.toNat) (fetch u)).registers DspReg.lc - 1 &&& bitmask 16 = 0 := by
      apply UInt32.toNat_inj.mp
      rw [hcount, hr0]
      rfl
    have hleave : a + len ≠ la + 1 ∨ lf = 0 := by
      by_cases h : lf = 0
      · exact Or.inr h
      · exact Or.inl (hlf h).2
    simp only [dspPostexecuteUpdatePc, repUpdate, hframe'.loopRep, hu.loopRep, hframe'.pcOnRep,
      hu.pcOnRep, DspCore.setReg_registers, Function.update_self, hzero, ne_eq, if_true]
    refine ⟨?_, ?_, ?_⟩
    all_goals
      rcases hleave with h | h <;>
        simp [h, loopUpdate, advancePc, hpc, hu.pc, hlen, hYs, hYa, hlfY]

/-- The repeated instruction runs exactly `r + 1` times from
    `LC = r + 1`, staying on its address until the last run; the induction
    is on `r`. -/
theorem rep_run (hplain : PlainAt dispatch (p a.toNat) len)
    (hlf : lf ≠ 0 → a ≠ la + 1 ∧ a + len ≠ la + 1) (r : Nat) :
    ∀ u, Repeating a lcsave la lf p u → r < 65536 → (u.registers DspReg.lc).toNat = r + 1 →
      (∀ j ≤ r, Repeating a lcsave la lf p ((dsp56kExecuteInstruction dispatch)^[j] u)) ∧
      ((dsp56kExecuteInstruction dispatch)^[r + 1] u).pc = a + len ∧
      ((dsp56kExecuteInstruction dispatch)^[r + 1] u).registers DspReg.lc = lcsave ∧
      ((dsp56kExecuteInstruction dispatch)^[r + 1] u).loopRep = 0 := by
  induction r with
  | zero =>
    intro u hu hr hlc
    obtain ⟨-, hlast⟩ := rep_step hplain hlf u hu 0 hr hlc
    refine ⟨fun j hj => ?_, hlast rfl⟩
    obtain rfl : j = 0 := by omega
    exact hu
  | succ r ih =>
    intro u hu hr hlc
    obtain ⟨hnext, -⟩ := rep_step hplain hlf u hu (r + 1) hr hlc
    obtain ⟨hu', hlc'⟩ := hnext (by omega)
    obtain ⟨hreps, hfinal⟩ := ih _ hu' (by omega) hlc'
    refine ⟨fun j hj => ?_, ?_⟩
    · rcases j with _ | j
      · exact hu
      · rw [Function.iterate_succ_apply]
        exact hreps j (by omega)
    · rw [Function.iterate_succ_apply]
      exact hfinal

/-- A count of 0 becomes 65536 on the REP instruction itself: the value
    `LC` holds after it is the number of runs. -/
theorem repCount_toNat (c : UInt32) :
    (if c = 0 then (0x010000 : UInt32) else c).toNat = loopPasses c := by
  unfold loopPasses
  split_ifs <;> rfl

/-- `REP #xxx` starts repeating the next instruction: `LCSAVE` keeps the
    old `LC`, and `LC` holds the number of runs.  Only the loop-end test
    after the REP word itself is excluded by the hypothesis. -/
theorem execute_repImm (s : DspCore) (hdisp : dispatch (readMemoryP s s.pc) = emuRepImm)
    (hlf : s.registers DspReg.sr &&& lfBit ≠ 0 → s.pc + 1 ≠ s.registers DspReg.la + 1) :
    Repeating (s.pc + 1) (s.registers DspReg.lc) (s.registers DspReg.la)
        (s.registers DspReg.sr &&& lfBit) s.pram (dsp56kExecuteInstruction dispatch s) ∧
      ((dsp56kExecuteInstruction dispatch s).registers DspReg.lc).toNat =
        loopPasses (immCount (readMemoryP s s.pc)) := by
  -- the REP word itself: `pc_on_rep` is set, so only the count is fixed up
  have hrep : repUpdate (emuRepImm (fetch s)) =
      ((emuRepImm (fetch s)).setReg DspReg.lc
        (if immCount (readMemoryP s s.pc) = 0 then 0x010000
          else immCount (readMemoryP s s.pc))).setPcOnRep 0 := by
    by_cases h0 : immCount (readMemoryP s s.pc) = 0 <;>
      simp [repUpdate, emuRepImm, enterRep, h0]
  have hstep : dsp56kExecuteInstruction dispatch s =
      loopUpdate (advancePc (((emuRepImm (fetch s)).setReg DspReg.lc
        (if immCount (readMemoryP s s.pc) = 0 then 0x010000
          else immCount (readMemoryP s s.pc))).setPcOnRep 0)) := by
    simp only [dsp56kExecuteInstruction, dspPostexecuteUpdatePc, fetch_curInst, hdisp, hrep]
  have hstay : s.registers DspReg.sr &&& lfBit = 0 ∨ s.pc + 1 ≠ s.registers DspReg.la + 1 := by
    by_cases h : s.registers DspReg.sr &&& lfBit = 0
    · exact Or.inl h
    · exact Or.inr (hlf h)
  rw [hstep]
  refine ⟨⟨?_, ?_, ?_, ?_, ?_, ?_, ?_⟩, ?_⟩
  all_goals
    rcases hstay with h | h <;>
      simp [h, loopUpdate, advancePc, emuRepImm, enterRep, repCount_toNat]

/-- A whole `REP #xxx` over a plain instruction of `len` words: the
    instruction runs exactly `loopPasses count` times (65536 for a count of
    0) with the PC on it, and then the PC is past it, `LC` is as before the
    REP, and no REP is running. -/
theorem repeat_run (s : DspCore) (hdisp : dispatch (readMemoryP s s.pc) = emuRepImm)
    (hplain : PlainAt dispatch (s.pram (s.pc + 1).toNat) len)
    (hlf : s.registers DspReg.sr &&& lfBit ≠ 0 →
      s.pc + 1 ≠ s.registers DspReg.la + 1 ∧ s.pc + 1 + len ≠ s.registers DspReg.la + 1) :
    let n := loopPasses (immCount (readMemoryP s s.pc))
    (∀ j < n, ((dsp56kExecuteInstruction dispatch)^[j + 1] s).pc = s.pc + 1) ∧
      ((dsp56kExecuteInstruction dispatch)^[n + 1] s).pc = s.pc + 1 + len ∧
      ((dsp56kExecuteInstruction dispatch)^[n + 1] s).registers DspReg.lc =
        s.registers DspReg.lc ∧
      ((dsp56kExecuteInstruction dispatch)^[n + 1] s).loopRep = 0 := by
  obtain ⟨hu, hlc⟩ := execute_repImm s hdisp (fun h => (hlf h).1)
  obtain ⟨hpos, hle, -⟩ := loopPasses_spec (immCount (readMemoryP s s.pc))
    (by have := immCount_lt (readMemoryP s s.pc); omega)
  -- the runs of the repeated instruction, from `LC = (n - 1) + 1`
  obtain ⟨hreps, hfinal⟩ := rep_run hplain hlf (loopPasses (immCount (readMemoryP s s.pc)) - 1)
    _ hu (by omega) (by rw [hlc]; omega)
  intro n
  have hn : n = (n - 1) + 1 := by omega
  refine ⟨fun j hj => ?_, ?_⟩
  · rw [Function.iterate_succ_apply]
    exact (hreps j (by omega)).pc
  · rw [hn, Function.iterate_succ_apply]
    exact hfinal

end repeating

end Xemu.Dsp
