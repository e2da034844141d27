import Mathlib
import Xemu.Lib.FirstMax
import Xemu.Lib.NodeList
import Xemu.Dsp.Opcache

/-! # DSP56300 interrupts

    Model of the interrupt handling of `hw/xbox/mcpx/apu/dsp/dsp_cpu.c`:
    the table `dsp_interrupt` of the twelve interrupts and their vectors,
    `dsp56k_add_interrupt` (in `Xemu.Dsp.Core`), and
    `dsp_postexecute_interrupts`, which runs after every instruction.

    An interrupt is pending in `interrupt_is_pending`, and
    `interrupt_counter` counts the pending ones.  After an instruction,
    unless a REP is running, `dsp_postexecute_interrupts` picks the pending
    interrupt of the highest level at or above the mask `SR.I1:I0`, a
    level-3 one at once, and starts it: `interrupt_pipeline_count` is set
    to 5 and `interrupt_state` to `DISABLED`.  For the next five
    instructions the interrupt's pipeline runs instead of the arbitration:
    one more instruction of the program, then the jump to the vector (the
    PC after it saved in `interrupt_save_pc`); if a word of the vector is a
    `JSR` the interrupt is long, and pushes the saved PC and `SR` and raises
    `SR`'s mask; otherwise, after the vector's two words, the PC returns to
    the saved one.  The sixth call re-enables the arbitration.

    The state is `IntrCore`, the core of `Xemu.Dsp.Core` with the five
    fields of `dsp_core_t` that only the interrupts use.  The emulation of
    an instruction is a parameter, as in `Xemu.Dsp.LoopControl`; the
    subroutine calls read the interrupt state, and `emuJsrImm` is the model
    of one of them.

    Results:
    * the arbitration loop, with its early stop at level 3, picks the least
      index among the pending interrupts of the greatest level at or above
      the mask (`arbitrate_eq_firstMax`), by the general scan of
      `Xemu.FirstMax`; after an instruction, once no pipeline runs, that
      interrupt is the one started (`dspPostexecuteInterrupts_arbitrates`);
    * every instruction keeps the pending table and its counter in step
      (`PendingInv`), as long as its emulation does, and the loop
      instructions of `Xemu.Dsp.LoopControl` and `JSR` do; from a reset
      core, runs of any length never reach the `assert(false)` of the SSI
      and host-command vectors, which no pending interrupt can have
      (`dspRun_never_aborts`);
    * a fast interrupt runs its two vector words after two more
      instructions of the program and then resumes the program where it
      left it, and no interrupt is taken meanwhile
      (`fast_interrupt_inserts_vector`).

    Not modelled: the cycle counts, the host port (`dsp->hostport`), and
    the debugger's disassembly.
-/

namespace Xemu.Dsp

open Xemu.Word Function

/-! ## Section 1: The interrupt state -/

namespace DspSr

/-- `DSP_SR_I0`, the low bit of the interrupt mask. -/
abbrev i0 : UInt32 := 0x08
/-- `DSP_SR_I1`, the high bit of the interrupt mask. -/
abbrev i1 : UInt32 := 0x09
/-- `DSP_SR_T`, the trace flag. -/
abbrev t : UInt32 := 0x0d

end DspSr

/-- `DSP_INTER_TRACE` -/
abbrev dspInterTrace : Nat := 0x3

/-- `interrupt_state`: `DSP_INTERRUPT_NONE`, `DSP_INTERRUPT_DISABLED` (the
    pipeline of an interrupt is running) and `DSP_INTERRUPT_LONG`. -/
inductive InterruptState
  | none
  | disabled
  | long
  deriving DecidableEq, Repr

/-- The core with the interrupt fields of `dsp_core_t` that only the
    interrupt handling reads. -/
structure IntrCore extends DspCore where
  interruptState : InterruptState
  /-- the vector of the interrupt being started -/
  interruptInstrFetch : UInt16
  /-- the PC to return to after a fast interrupt -/
  interruptSavePc : UInt16
  /-- the level the interrupt puts in `SR` when it is long -/
  interruptIplToRaise : UInt16
  interruptPipelineCount : UInt16

namespace IntrCore

/-- A function of the core applied to the core of `s`. -/
def onCore (s : IntrCore) (f : DspCore → DspCore) : IntrCore := { s with toDspCore := f s.toDspCore }

@[simp] theorem onCore_toDspCore (s : IntrCore) (f : DspCore → DspCore) :
    (s.onCore f).toDspCore = f s.toDspCore := rfl

@[simp] theorem onCore_interruptState (s : IntrCore) (f : DspCore → DspCore) :
    (s.onCore f).interruptState = s.interruptState := rfl

@[simp] theorem onCore_interruptInstrFetch (s : IntrCore) (f : DspCore → DspCore) :
    (s.onCore f).interruptInstrFetch = s.interruptInstrFetch := rfl

@[simp] theorem onCore_interruptSavePc (s : IntrCore) (f : DspCore → DspCore) :
    (s.onCore f).interruptSavePc = s.interruptSavePc := rfl

@[simp] theorem onCore_interruptIplToRaise (s : IntrCore) (f : DspCore → DspCore) :
    (s.onCore f).interruptIplToRaise = s.interruptIplToRaise := rfl

@[simp] theorem onCore_interruptPipelineCount (s : IntrCore) (f : DspCore → DspCore) :
    (s.onCore f).interruptPipelineCount = s.interruptPipelineCount := rfl

end IntrCore

/-- `dsp_interrupt[i].vectorAddr`, in the order of the table: reset,
    illegal, stack error, trace, SWI, host command, host receive, host
    transmit, SSI receive with exception, SSI receive, SSI transmit with
    exception, SSI transmit. -/
def dspInterruptVectors : List UInt16 :=
  [0x00, 0x3e, 0x02, 0x04, 0x06, 0xff, 0x20, 0x22, 0x0e, 0x0c, 0x12, 0x10]

/-- The `assert(false)`s at the end of `dsp_postexecute_interrupts`. -/
inductive InterruptAbort
  /-- SSI receive data with exception, vector `0x0e` -/
  | ssiRcvDataE
  /-- SSI transmit data with exception, vector `0x12` -/
  | ssiTrxDataE
  /-- host command, vector `0xff` -/
  | hostCommand
  deriving DecidableEq, Repr

/-- `dsp56k_reset_cpu` on the interrupt fields as well: no interrupt
    running, vector and saved PC at `-1`. -/
def dsp56kResetCpuIntr (s : IntrCore) : IntrCore :=
  { s with
    toDspCore := dsp56kResetCpu s.toDspCore
    interruptState := .none
    interruptInstrFetch := 0xFFFF
    interruptSavePc := 0xFFFF
    interruptPipelineCount := 0 }

/-! ## Section 2: The pipeline of an interrupt -/

/-- A word that makes the interrupt long: `JSR xxx` or `JSR ea`. -/
def isLongInterruptInstr (instr : UInt32) : Bool :=
  (instr &&& 0xfff000) = 0x0d0000 || (instr &&& 0xffc0ff) = 0x0bc080

/-- `BITMASK(16)` without `LF`, `T`, `S1`, `S0`, `I0` and `I1`. -/
def srLongMask : UInt32 :=
  bitmask 16 - ((1 <<< DspSr.lf) ||| (1 <<< DspSr.t) ||| (1 <<< DspSr.s1) ||| (1 <<< DspSr.s0) |||
    (1 <<< DspSr.i0) ||| (1 <<< DspSr.i1))

/-- The start of a long interrupt: the saved PC and `SR` are pushed, and
    `SR` takes the interrupt's level with the loop, trace and scaling bits
    cleared. -/
def enterLongInterrupt (s : IntrCore) : IntrCore :=
  let s := { s with interruptState := .long }
  let s := s.onCore fun c => dspStackPush c s.interruptSavePc.toUInt32 (c.registers DspReg.sr) false
  let s := s.onCore fun c => c.setReg DspReg.sr (c.registers DspReg.sr &&& srLongMask)
  s.onCore fun c =>
    c.setReg DspReg.sr (c.registers DspReg.sr ||| (s.interruptIplToRaise.toUInt32 <<< DspSr.i0))

/-- The `switch` on `interrupt_pipeline_count` while `interrupt_state` is
    `DISABLED`: `.inl` where a case returns, `.inr` where the function goes
    on to the arbitration (case 0 re-enables the interrupts; a count above
    5 matches no case). -/
def interruptPipeline (s : IntrCore) : IntrCore ⊕ IntrCore :=
  match s.interruptPipelineCount.toNat with
  | 5 => .inl { s with interruptPipelineCount := s.interruptPipelineCount - 1 }
  | 4 =>
    -- prefetch interrupt instruction 1
    let s := { s with interruptSavePc := s.pc.toUInt16 }
    let s := s.onCore fun c => c.setPc s.interruptInstrFetch.toUInt32
    let s := if isLongInterruptInstr (readMemoryP s.toDspCore s.interruptInstrFetch.toUInt32) then
      enterLongInterrupt s else s
    .inl { s with interruptPipelineCount := s.interruptPipelineCount - 1 }
  | 3 =>
    -- prefetch interrupt instruction 2
    let s := if s.pc.toNat = s.interruptInstrFetch.toNat + 1 then
        if isLongInterruptInstr (readMemoryP s.toDspCore s.pc) then enterLongInterrupt s else s
      else s
    .inl { s with interruptPipelineCount := s.interruptPipelineCount - 1 }
  | 2 =>
    -- a fast interrupt returns after its two words
    let s := if s.pc.toNat = s.interruptInstrFetch.toNat + 2 then
        s.onCore fun c => c.setPc s.interruptSavePc.toUInt32
      else s
    .inl { s with interruptPipelineCount := s.interruptPipelineCount - 1 }
  | 1 => .inl { s with interruptPipelineCount := s.interruptPipelineCount - 1 }
  | 0 => .inr { s with interruptSavePc := 0xFFFF, interruptInstrFetch := 0xFFFF, interruptState := .none }
  | _ => .inr s

/-! ## Section 3: Arbitration -/

/-- The arbitration loop over the interrupts `is`, with the index and the
    level chosen so far; a pending level-3 interrupt stops the loop. -/
def arbitrate (c : DspCore) (iplSr : Int) : List Nat → UInt32 → Int → UInt32
  | [], index, _ => index
  | i :: is, index, iplToRaise =>
    if c.interruptIsPending i = 1 then
      if c.interruptIpl i = 3 then i.toUInt32
      -- masked in `SR`, or not above the one chosen so far
      else if c.interruptIpl i < iplSr then arbitrate c iplSr is index iplToRaise
      else if c.interruptIpl i ≤ iplToRaise then arbitrate c iplSr is index iplToRaise
      else arbitrate c iplSr is i.toUInt32 (c.interruptIpl i)
    else arbitrate c iplSr is index iplToRaise

/-- The end of `dsp_postexecute_interrupts`: the chosen interrupt leaves
    the table and its pipeline starts. -/
def dspStartInterrupt (s : IntrCore) (index : Nat) : IntrCore :=
  let s := s.onCore fun c =>
    { c with interruptIsPending := update c.interruptIsPending index 0,
             interruptCounter := c.interruptCounter - 1 }
  let iplToRaise := s.interruptIpl index + 1
  let iplToRaise := if iplToRaise > 3 then 3 else iplToRaise
  { s with
    interruptInstrFetch := dspInterruptVectors.getD index 0
    interruptPipelineCount := 5
    interruptState := .disabled
    interruptIplToRaise := UInt16.ofInt iplToRaise }

/-- The chosen interrupt started, and the `assert(false)`s on the vectors
    whose handling is not written. -/
def dspRaiseInterrupt (s : IntrCore) (index : Nat) : Except InterruptAbort IntrCore :=
  let s := dspStartInterrupt s index
  if s.interruptInstrFetch = 0xe then .error .ssiRcvDataE
  else if s.interruptInstrFetch = 0x12 then .error .ssiTrxDataE
  else if s.interruptInstrFetch = 0xff then .error .hostCommand
  else .ok s

/-- The mask `SR.I1:I0`. -/
def iplSrOf (c : DspCore) : Int := ((c.registers DspReg.sr >>> DspSr.i0) &&& bitmask 2).toNat

/-- `dsp_postexecute_interrupts` posts the trace interrupt when `SR.T` is
    set. -/
def dspTraceInterrupt (s : IntrCore) : IntrCore :=
  if s.registers DspReg.sr &&& (1 <<< DspSr.t) ≠ 0 then s.onCore (dsp56kAddInterrupt · dspInterTrace)
  else s

/-- The part of `dsp_postexecute_interrupts` after the pipeline: the trace
    interrupt, then the arbitration among the pending interrupts, if any. -/
def dspArbitrateInterrupts (s : IntrCore) : Except InterruptAbort IntrCore :=
  let s := dspTraceInterrupt s
  if s.interruptCounter = 0 then .ok s else
  let index := arbitrate s.toDspCore (iplSrOf s.toDspCore) (List.range 12) 0xffff (-1)
  if index = 0xffff then .ok s else dspRaiseInterrupt s index.toNat

/-- `dsp_postexecute_interrupts` -/
def dspPostexecuteInterrupts (s : IntrCore) : Except InterruptAbort IntrCore :=
  -- REP is not interruptible
  if s.loopRep ≠ 0 then .ok s else
  match (if s.interruptState = .disabled then interruptPipeline s else .inr s) with
  | .inl s => .ok s
  | .inr s => dspArbitrateInterrupts s

/-! ## Section 4: Instructions and runs -/

/-- `dsp56k_execute_instruction` with its interrupt step: the fetch, the
    emulation `dispatch w` of the word (which may read and change the
    interrupt state), `dsp_postexecute_update_pc` and
    `dsp_postexecute_interrupts`. -/
def dsp56kExecuteInstructionIntr (dispatch : UInt32 → IntrCore → IntrCore) (s : IntrCore) :
    Except InterruptAbort IntrCore :=
  let s := s.onCore fetch
  let s := dispatch s.curInst s
  dspPostexecuteInterrupts (s.onCore dspPostexecuteUpdatePc)

/-- `n` instructions, as the loop of `dsp_run` executes them; the first
    failed `assert` ends the run. -/
def dspRun (dispatch : UInt32 → IntrCore → IntrCore) : Nat → IntrCore → Except InterruptAbort IntrCore
  | 0, s => .ok s
  | n + 1, s =>
    match dsp56kExecuteInstructionIntr dispatch s with
    | .error e => .error e
    | .ok s => dspRun dispatch n s

theorem dspRun_succ_of_ok {dispatch : UInt32 → IntrCore → IntrCore} {n : Nat} {s t : IntrCore}
    (h : dsp56kExecuteInstructionIntr dispatch s = .ok t) : dspRun dispatch (n + 1) s = dspRun dispatch n t := by
  rw [dspRun, h]

/-- The emulation of a core instruction, which does not read the interrupt
    state. -/
def liftEmu (emu : DspCore → DspCore) (s : IntrCore) : IntrCore := s.onCore emu

/-- `emu_jsr_imm`: `JSR xxx`.  During a long interrupt the return address
    is on the stack already, and the call only ends the long state. -/
def emuJsrImm (s : IntrCore) : IntrCore :=
  let newpc := s.curInst &&& bitmask 12
  let s := if s.interruptState ≠ .long then
      s.onCore fun c => dspStackPush c (c.pc + c.curInstLen) (c.registers DspReg.sr) false
    else { s with interruptState := .disabled }
  s.onCore fun c => (c.setPc newpc).setCurInstLen 0

/-! ## Section 5: The arbitration picks the first of the highest level -/

section arbitration

variable (c : DspCore) (iplSr : Int)

/-- The interrupts the arbitration may start: pending, at or above the
    mask. -/
def eligible (i : Nat) : Bool := c.interruptIsPending i = 1 ∧ iplSr ≤ c.interruptIpl i

/-- The loop's `index` for the scan's best so far: `0xffff` for none. -/
def encodeIndex : Option Nat → UInt32
  | none => 0xffff
  | some i => i.toUInt32

variable {c iplSr}

/-- The arbitration loop is the scan of `Xemu.FirstMax` over the eligible
    interrupts by level.  The loop's `(index, ipl_to_raise)` is
    `(0xffff, -1)` for no best so far and `(j, ipl[j])` for the best `j`,
    whose level is below 3: a level-3 one would have stopped the loop,
    and the scan keeps it to the end since no level is above 3. -/
theorem arbitrate_eq_foldl {l : List Nat} {best : Option Nat} {index : UInt32} {ipl : Int}
    (hsr : 0 ≤ iplSr) (hsr3 : iplSr ≤ 3) (htop : ∀ i ∈ l, c.interruptIpl i ≤ 3)
    (hbest : (best = none ∧ index = 0xffff ∧ ipl = -1) ∨
      ∃ j, best = some j ∧ index = j.toUInt32 ∧ ipl = c.interruptIpl j ∧ c.interruptIpl j < 3) :
    arbitrate c iplSr l index ipl =
      encodeIndex (l.foldl (FirstMax.step (eligible c iplSr) c.interruptIpl) best) := by
  induction l generalizing best index ipl with
  | nil =>
    rcases hbest with ⟨rfl, rfl, -⟩ | ⟨j, rfl, rfl, -⟩ <;> rfl
  | cons i l ih =>
    have htop' : ∀ k ∈ l, c.interruptIpl k ≤ 3 := fun k hk => htop k (List.mem_cons_of_mem _ hk)
    -- what the best so far says of `i`
    have hbeat : best.all (fun b => c.interruptIpl b < c.interruptIpl i) = decide (ipl < c.interruptIpl i) ∨
        c.interruptIpl i < iplSr := by
      rcases hbest with ⟨rfl, -, rfl⟩ | ⟨j, rfl, -, rfl, -⟩
      · by_cases hi : iplSr ≤ c.interruptIpl i
        · left
          simp only [Option.all_none, true_eq_decide_iff]
          omega
        · exact .inr (not_le.mp hi)
      · exact .inl rfl
    rw [List.foldl_cons, arbitrate]
    by_cases hp : c.interruptIsPending i = 1
    · rw [if_pos hp]
      by_cases h3 : c.interruptIpl i = 3
      · -- level 3: the loop stops, and the scan keeps `i` to the end
        rw [if_pos h3]
        have hstep : FirstMax.step (eligible c iplSr) c.interruptIpl best i = some i := by
          rcases hbest with ⟨rfl, -, -⟩ | ⟨j, rfl, -, -, hj⟩
          · simp [FirstMax.step, eligible, hp, h3, hsr3]
          · simp [FirstMax.step, eligible, hp, h3, hsr3, hj]
        rw [hstep, FirstMax.foldl_step_of_top (fun k hk => h3 ▸ htop' k hk)]
        rfl
      rw [if_neg h3]
      by_cases hmask : c.interruptIpl i < iplSr
      · -- masked
        rw [if_pos hmask, ih htop' hbest]
        congr 2
        simp [FirstMax.step, eligible, not_le.mpr hmask]
      rw [if_neg hmask]
      have helig : eligible c iplSr i = true := by simp [eligible, hp, not_lt.mp hmask]
      have hbeat' := hbeat.resolve_right hmask
      by_cases hle : c.interruptIpl i ≤ ipl
      · -- not above the best so far
        rw [if_pos hle, ih htop' hbest]
        congr 2
        simp [FirstMax.step, hbeat', not_lt.mpr hle]
      · -- the new best
        rw [if_neg hle, ih htop' (.inr ⟨i, rfl, rfl, rfl, lt_of_le_of_ne (htop i List.mem_cons_self) h3⟩)]
        congr 2
        simp [FirstMax.step, helig, hbeat', not_le.mp hle]
    · -- not pending
      rw [if_neg hp, ih htop' hbest]
      congr 2
      simp [FirstMax.step, eligible, hp]

theorem iplSrOf_nonneg (c : DspCore) : 0 ≤ iplSrOf c := Int.natCast_nonneg _

theorem iplSrOf_le (c : DspCore) : iplSrOf c ≤ 3 := by
  have h : ((c.registers DspReg.sr >>> DspSr.i0) &&& bitmask 2).toNat < 4 := by
    rw [toNat_and_bitmask _ 2 (by decide)]
    exact Nat.mod_lt _ (by decide)
  unfold iplSrOf
  omega

/-- When no level is above 3, the arbitration of
    `dsp_postexecute_interrupts` ends on the first of the greatest level
    among the eligible interrupts, or on `0xffff` when none is eligible. -/
theorem arbitrate_eq_firstMax (c : DspCore) (hipl : ∀ i < 12, c.interruptIpl i ≤ 3) :
    arbitrate c (iplSrOf c) (List.range 12) 0xffff (-1) =
      encodeIndex (FirstMax.firstMax (eligible c (iplSrOf c)) c.interruptIpl 12) :=
  arbitrate_eq_foldl (iplSrOf_nonneg c) (iplSrOf_le c) (fun i hi => hipl i (List.mem_range.mp hi))
    (.inl ⟨rfl, rfl, rfl⟩)

end arbitration

/-! ## Section 6: The pending table and its counter -/

/-- `interrupt_counter` is the number of pending interrupts. -/
def CounterCounts (c : DspCore) : Prop :=
  c.interruptCounter.toNat = (List.range 12).countP fun i => c.interruptIsPending i = 1

instance (c : DspCore) : Decidable (CounterCounts c) := inferInstanceAs (Decidable (_ = _))

/-- Writing one entry of the table changes the count by that entry. -/
theorem countP_update_pending (p : Nat → UInt16) {i : Nat} (hi : i < 12) (x : UInt16) :
    ((List.range 12).countP fun j => update p i x j = 1) + (if p i = 1 then 1 else 0) =
      ((List.range 12).countP fun j => p j = 1) + (if x = 1 then 1 else 0) := by
  have hfun : (fun j => decide (update p i x j = 1)) = update (fun j => decide (p j = 1)) i (decide (x = 1)) := by
    funext j
    by_cases hj : j = i
    · subst hj
      simp
    · simp [update_of_ne hj]
  have := Xemu.NodeList.countP_update (List.nodup_range) (List.mem_range.mpr hi)
    (fun j => decide (p j = 1)) (decide (x = 1))
  rw [hfun]
  simpa using this

theorem countP_pending_le (p : Nat → UInt16) : ((List.range 12).countP fun j => p j = 1) ≤ 12 :=
  (List.countP_le_length).trans (by simp)

theorem countP_pending_pos {p : Nat → UInt16} {i : Nat} (hi : i < 12) (hp : p i = 1) :
    0 < (List.range 12).countP fun j => p j = 1 :=
  List.countP_pos_iff.mpr ⟨i, List.mem_range.mpr hi, by simp [hp]⟩

/-- Posting an interrupt keeps the counter in step. -/
theorem CounterCounts.addInterrupt {c : DspCore} (h : CounterCounts c) {i : Nat} (hi : i < 12) :
    CounterCounts (dsp56kAddInterrupt c i) := by
  unfold dsp56kAddInterrupt
  split_ifs with hipl hp
  · exact h
  · -- a new pending interrupt: one more in the table and in the counter
    have hcount := countP_update_pending c.interruptIsPending hi 1
    have hle := countP_pending_le c.interruptIsPending
    simp only [hp, if_true] at hcount
    simp only [CounterCounts] at h ⊢
    rw [UInt16.toNat_add, UInt16.toNat_one, h]
    simp at hcount
    omega
  · exact h

/-- Taking a pending interrupt out of the table keeps the counter in step. -/
theorem CounterCounts.take {c : DspCore} (h : CounterCounts c) {i : Nat} (hi : i < 12)
    (hp : c.interruptIsPending i = 1) :
    CounterCounts
      { c with
        interruptIsPending := update c.interruptIsPending i 0
        interruptCounter := c.interruptCounter - 1 } := by
  have hcount := countP_update_pending c.interruptIsPending hi 0
  have hpos := countP_pending_pos hi hp
  simp only [hp, if_true] at hcount
  simp only [CounterCounts] at h ⊢
  rw [UInt16.toNat_sub_of_le _ _ (by rw [UInt16.le_iff_toNat_le, h]; simpa using hpos), h,
    UInt16.toNat_one]
  simp at hcount
  omega

@[simp] theorem dsp56kAddInterrupt_interruptIpl (c : DspCore) (i : Nat) :
    (dsp56kAddInterrupt c i).interruptIpl = c.interruptIpl := by
  unfold dsp56kAddInterrupt
  split_ifs <;> rfl

theorem toNat_encodeIndex {i : Nat} (hi : i < 12) : (encodeIndex (some i)).toNat = i := by
  simp only [encodeIndex, Nat.toUInt32_eq, UInt32.toNat_ofNat']
  omega

theorem encodeIndex_ne {i : Nat} (hi : i < 12) : encodeIndex (some i) ≠ 0xffff := by
  intro h
  have := toNat_encodeIndex hi
  rw [h] at this
  simp at this
  omega

theorem CounterCounts.trace {u : IntrCore} (h : CounterCounts u.toDspCore) :
    CounterCounts (dspTraceInterrupt u).toDspCore := by
  unfold dspTraceInterrupt
  split_ifs
  · exact h.addInterrupt (by decide)
  · exact h

@[simp] theorem dspTraceInterrupt_interruptIpl (u : IntrCore) :
    (dspTraceInterrupt u).interruptIpl = u.interruptIpl := by
  unfold dspTraceInterrupt
  split_ifs <;> simp

/-- Once the pipeline of an interrupt, if one runs, hands over,
    `dsp_postexecute_interrupts` is the arbitration. -/
theorem dspPostexecuteInterrupts_of_inr {s u : IntrCore} (hrep : s.loopRep = 0)
    (hpipe : (if s.interruptState = .disabled then interruptPipeline s else .inr s) = .inr u) :
    dspPostexecuteInterrupts s = dspArbitrateInterrupts u := by
  rw [dspPostexecuteInterrupts, if_neg (by simp [hrep]), hpipe]

/-- The arbitration in terms of the scan: nothing, or the first of the
    greatest level among the eligible interrupts. -/
theorem dspArbitrateInterrupts_eq {u : IntrCore} (hipl : ∀ i < 12, u.interruptIpl i ≤ 3) :
    dspArbitrateInterrupts u =
      if (dspTraceInterrupt u).interruptCounter = 0 then .ok (dspTraceInterrupt u) else
      match FirstMax.firstMax (eligible (dspTraceInterrupt u).toDspCore
          (iplSrOf (dspTraceInterrupt u).toDspCore)) u.interruptIpl 12 with
      | none => .ok (dspTraceInterrupt u)
      | some i => dspRaiseInterrupt (dspTraceInterrupt u) i := by
  have htipl : ∀ i < 12, (dspTraceInterrupt u).interruptIpl i ≤ 3 := by simpa using hipl
  rw [dspArbitrateInterrupts]
  dsimp only
  rw [arbitrate_eq_firstMax _ htipl, dspTraceInterrupt_interruptIpl]
  split
  · rfl
  · cases hfm : FirstMax.firstMax (eligible (dspTraceInterrupt u).toDspCore
        (iplSrOf (dspTraceInterrupt u).toDspCore)) u.interruptIpl 12 with
    | none => simp [encodeIndex]
    | some i =>
      have hi := (FirstMax.firstMax_eq_some_iff.mp hfm).lt
      dsimp only
      rw [if_neg (encodeIndex_ne hi), toNat_encodeIndex hi]

/-- After an instruction outside a REP, once an interrupt's pipeline, if
    one runs, has handed over, `dsp_postexecute_interrupts` starts the
    first of the greatest level among the eligible interrupts (with the
    trace interrupt posted first when `SR.T` is set), and starts none when
    none is eligible. -/
theorem dspPostexecuteInterrupts_arbitrates {s u : IntrCore} (hrep : s.loopRep = 0)
    (hpipe : (if s.interruptState = .disabled then interruptPipeline s else .inr s) = .inr u)
    (hcount : CounterCounts u.toDspCore) (hipl : ∀ i < 12, u.interruptIpl i ≤ 3) :
    (∀ i, FirstMax.IsFirstMax (eligible (dspTraceInterrupt u).toDspCore
        (iplSrOf (dspTraceInterrupt u).toDspCore)) u.interruptIpl 12 i →
      dspPostexecuteInterrupts s = dspRaiseInterrupt (dspTraceInterrupt u) i) ∧
    ((∀ i < 12, eligible (dspTraceInterrupt u).toDspCore (iplSrOf (dspTraceInterrupt u).toDspCore) i = false) →
      dspPostexecuteInterrupts s = .ok (dspTraceInterrupt u)) := by
  have htcount := hcount.trace
  rw [dspPostexecuteInterrupts_of_inr hrep hpipe, dspArbitrateInterrupts_eq hipl]
  refine ⟨fun i hi => ?_, fun hnone => ?_⟩
  · -- `i` is pending, so the counter is not zero
    have hpend : (dspTraceInterrupt u).interruptIsPending i = 1 := by
      have hacc := hi.accepted
      simp only [eligible, Bool.decide_and, Bool.and_eq_true, decide_eq_true_eq] at hacc
      exact hacc.1
    have hne : (dspTraceInterrupt u).interruptCounter ≠ 0 := by
      intro h0
      have hpos := countP_pending_pos hi.lt hpend
      rw [CounterCounts, h0] at htcount
      simp at htcount
      omega
    rw [if_neg hne, FirstMax.firstMax_eq_some_iff.mpr hi]
  · rw [FirstMax.firstMax_eq_none_iff.mpr hnone]
    split_ifs <;> rfl

/-- The reset core with the stack-error and SWI interrupts posted. -/
def stackErrorAndSwi : IntrCore :=
  ((dsp56kResetCpuIntr ⟨DspCore.zeroed, .none, 0, 0, 0, 0⟩).onCore (dsp56kAddInterrupt · 2)).onCore
    (dsp56kAddInterrupt · 4)

theorem dspPostexecuteInterrupts_arbitrates_reset :
    (∀ i, FirstMax.IsFirstMax (eligible (dspTraceInterrupt stackErrorAndSwi).toDspCore
        (iplSrOf (dspTraceInterrupt stackErrorAndSwi).toDspCore)) stackErrorAndSwi.interruptIpl 12 i →
      dspPostexecuteInterrupts stackErrorAndSwi = dspRaiseInterrupt (dspTraceInterrupt stackErrorAndSwi) i) ∧
    ((∀ i < 12, eligible (dspTraceInterrupt stackErrorAndSwi).toDspCore
        (iplSrOf (dspTraceInterrupt stackErrorAndSwi).toDspCore) i = false) →
      dspPostexecuteInterrupts stackErrorAndSwi = .ok (dspTraceInterrupt stackErrorAndSwi)) :=
  dspPostexecuteInterrupts_arbitrates (s := stackErrorAndSwi) rfl rfl (by decide) (by decide)

/-! ## Section 7: The pending table over runs -/

/-- The levels `dsp56k_reset_cpu` gives the interrupts: 3 for the first
    five, `-1` (unused) for the others. -/
def resetIpl (i : Nat) : Int := if i < 5 then 3 else -1

/-- The pending table of a core that was reset: the levels are the reset
    ones, only used interrupts (the first five) are pending, each once, and
    the counter counts them. -/
structure PendingInv (c : DspCore) : Prop where
  ipl : ∀ i < 12, c.interruptIpl i = resetIpl i
  pending : ∀ i, c.interruptIsPending i ≠ 0 → i < 5 ∧ c.interruptIsPending i = 1
  counter : CounterCounts c

/-- A function of the core that keeps `PendingInv`. -/
def KeepsPending (f : DspCore → DspCore) : Prop := ∀ c, PendingInv c → PendingInv (f c)

section pending

variable {c c' : DspCore}

theorem PendingInv.congr (h : PendingInv c) (hipl : c'.interruptIpl = c.interruptIpl)
    (hp : c'.interruptIsPending = c.interruptIsPending) (hc : c'.interruptCounter = c.interruptCounter) :
    PendingInv c' := by
  refine ⟨?_, ?_, ?_⟩
  · rw [hipl]
    exact h.ipl
  · rw [hp]
    exact h.pending
  · unfold CounterCounts
    rw [hp, hc]
    exact h.counter

theorem PendingInv.setReg (h : PendingInv c) (r : Nat) (v : UInt32) : PendingInv (c.setReg r v) :=
  h.congr rfl rfl rfl

theorem pendingInv_dsp56kResetCpu (c : DspCore) : PendingInv (dsp56kResetCpu c) := by
  refine ⟨fun i hi => ?_, fun i h => absurd rfl h, ?_⟩
  · simp only [dsp56kResetCpu, resetIpl]
    split_ifs <;> omega
  · simp [CounterCounts, dsp56kResetCpu]

/-- Posting an interrupt: a used one becomes pending, an unused one is
    dropped. -/
theorem PendingInv.addInterrupt (h : PendingInv c) {i : Nat} (hi : i < 12) :
    PendingInv (dsp56kAddInterrupt c i) := by
  have hcount := h.counter.addInterrupt hi
  unfold dsp56kAddInterrupt at hcount ⊢
  split_ifs at hcount ⊢ with hipl hp
  · exact h
  · -- a used interrupt, among the first five
    have hi5 : i < 5 := by
      by_contra hge
      exact hipl (by rw [h.ipl i hi, resetIpl, if_neg hge])
    refine ⟨h.ipl, fun j hj => ?_, hcount⟩
    by_cases hji : j = i
    · subst hji
      simp [hi5]
    · simp only [update_of_ne hji] at hj ⊢
      exact h.pending j hj
  · exact h

theorem PendingInv.setStack (h : PendingInv c) (half : Fin 2) (level : Nat) (v : UInt32) :
    PendingInv (c.setStack half level v) :=
  h.congr rfl rfl rfl

theorem PendingInv.setPc (h : PendingInv c) (v : UInt32) : PendingInv (c.setPc v) :=
  h.congr rfl rfl rfl

theorem PendingInv.setCurInstLen (h : PendingInv c) (v : UInt32) : PendingInv (c.setCurInstLen v) :=
  h.congr rfl rfl rfl

theorem PendingInv.dspStackPush (h : PendingInv c) (curpc cursr : UInt32) (sshOnly : Bool) :
    PendingInv (dspStackPush c curpc cursr sshOnly) := by
  -- the stack-error interrupt, if any, is posted first; the rest writes the stack
  have hadd := h.addInterrupt (i := dspInterStackError) (by decide)
  simp only [Xemu.Dsp.dspStackPush]
  split_ifs
  all_goals first
    | exact hadd.congr rfl rfl rfl
    | exact h.congr rfl rfl rfl

theorem PendingInv.dspStackPop (h : PendingInv c) : PendingInv (dspStackPop c).2.2 := by
  have hadd := h.addInterrupt (i := dspInterStackError) (by decide)
  simp only [Xemu.Dsp.dspStackPop]
  split_ifs
  all_goals first
    | exact hadd.congr rfl rfl rfl
    | exact h.congr rfl rfl rfl

theorem PendingInv.exitLoop (h : PendingInv c) : PendingInv (exitLoop c) := by
  unfold Xemu.Dsp.exitLoop
  -- two pops, between them writes of `SR`
  rcases hpop₁ : Xemu.Dsp.dspStackPop c with ⟨pc₁, sr₁, c₁⟩
  have h₁ : PendingInv c₁ := by simpa [hpop₁] using h.dspStackPop
  dsimp only
  exact ((((h₁.setReg _ _).setReg _ _).dspStackPop).setReg _ _).setReg _ _

theorem PendingInv.dspPostexecuteUpdatePc (h : PendingInv c) : PendingInv (dspPostexecuteUpdatePc c) := by
  have hrep : PendingInv (repUpdate c) := by
    simp only [repUpdate]
    split_ifs <;> exact h.congr rfl rfl rfl
  have hadv : PendingInv (advancePc (repUpdate c)) := hrep.setPc _
  simp only [Xemu.Dsp.dspPostexecuteUpdatePc, loopUpdate, loopEnd]
  split_ifs
  · exact (hadv.setReg _ _).exitLoop
  · exact (hadv.setReg _ _).setPc _
  all_goals exact hadv

theorem PendingInv.enterLoop (h : PendingInv c) (la : UInt32) : PendingInv (enterLoop c la) := by
  unfold Xemu.Dsp.enterLoop
  exact ((((h.dspStackPush _ _ _).setReg _ _).setCurInstLen _).dspStackPush _ _ _).setReg _ _

theorem PendingInv.enterRep (h : PendingInv c) : PendingInv (enterRep c) := h.congr rfl rfl rfl

theorem PendingInv.readCountReg (h : PendingInv c) (numreg : Nat) : PendingInv (readCountReg c numreg).2 := by
  simp only [Xemu.Dsp.readCountReg, emuPmReadAccu24]
  split_ifs <;> first | exact h | exact h.setReg _ _

/-- The loop instructions of `Xemu.Dsp.LoopControl` touch the pending table
    only through the stack-error interrupt of their pushes and pops. -/
theorem keepsPending_loopEmus (readPeripheral : DspCore → UInt32 → UInt32) :
    KeepsPending emuDoImm ∧ KeepsPending (emuDoAa readPeripheral) ∧ KeepsPending emuDoReg ∧
      KeepsPending emuDorImm ∧ KeepsPending emuDorReg ∧ KeepsPending emuEnddo ∧
      KeepsPending emuRepImm ∧ KeepsPending (emuRepAa readPeripheral) ∧ KeepsPending emuRepReg ∧
      KeepsPending emuNop := by
  refine ⟨?_, ?_, ?_, ?_, ?_, ?_, ?_, ?_, ?_, fun _ h => h⟩
  all_goals intro c h
  · exact (h.enterLoop _).setReg _ _
  · unfold emuDoAa
    exact (h.enterLoop _).setReg _ _
  · unfold emuDoReg
    dsimp only
    exact ((((((h.dspStackPush _ _ _).setReg _ _).setCurInstLen _).readCountReg _).setReg _ _).dspStackPush
      _ _ _).setReg _ _
  · exact (h.enterLoop _).setReg _ _
  · unfold emuDorReg
    dsimp only
    exact ((h.enterLoop _).readCountReg _).setReg _ _
  · exact h.exitLoop
  · exact h.enterRep.setReg _ _
  · unfold emuRepAa
    exact h.enterRep.setReg _ _
  · unfold emuRepReg
    dsimp only
    exact (h.enterRep.readCountReg _).setReg _ _

end pending

/-! ### Instructions keep the table, and never reach the asserts -/

section run

variable {s t : IntrCore}

theorem resetIpl_le (i : Nat) : resetIpl i ≤ 3 := by
  unfold resetIpl
  split_ifs <;> omega

theorem PendingInv.ipl_le {c : DspCore} (h : PendingInv c) : ∀ i < 12, c.interruptIpl i ≤ 3 :=
  fun i hi => h.ipl i hi ▸ resetIpl_le i

theorem PendingInv.enterLongInterrupt (h : PendingInv s.toDspCore) :
    PendingInv (enterLongInterrupt s).toDspCore :=
  ((h.dspStackPush _ _ _).setReg _ _).setReg _ _

/-- Each step of the pipeline keeps the table. -/
theorem PendingInv.interruptPipeline (h : PendingInv s.toDspCore)
    (ht : interruptPipeline s = .inl t ∨ interruptPipeline s = .inr t) : PendingInv t.toDspCore := by
  unfold Xemu.Dsp.interruptPipeline at ht
  split at ht
  all_goals simp only [reduceCtorEq, Sum.inl.injEq, Sum.inr.injEq, false_or, or_false] at ht
  all_goals subst ht
  · exact h
  · -- the jump to the vector, and a long interrupt's push
    dsimp only
    split_ifs
    · apply PendingInv.enterLongInterrupt
      exact h.setPc _
    · exact h.setPc _
  · dsimp only
    split_ifs
    · apply PendingInv.enterLongInterrupt
      exact h
    all_goals exact h
  · dsimp only
    split_ifs
    · exact h.setPc _
    · exact h
  all_goals exact h

/-- The interrupts that can be pending start at vectors other than those
    of the `assert(false)`s. -/
theorem dspRaiseInterrupt_ok (h : PendingInv s.toDspCore) {i : Nat} (hp : s.interruptIsPending i = 1) :
    dspRaiseInterrupt s i = .ok (dspStartInterrupt s i) ∧ PendingInv (dspStartInterrupt s i).toDspCore := by
  have hi5 := (h.pending i (by rw [hp]; decide)).1
  have htake := h.counter.take (by omega) hp
  refine ⟨?_, ⟨fun j hj => h.ipl j hj, fun j hj => ?_, htake⟩⟩
  · -- the vectors of the first five interrupts
    unfold dspRaiseInterrupt
    interval_cases i <;> rfl
  · by_cases hji : j = i
    · subst hji
      simp [dspStartInterrupt] at hj
    · simp only [dspStartInterrupt, IntrCore.onCore_toDspCore, update_of_ne hji] at hj ⊢
      exact h.pending j hj

theorem PendingInv.dspTraceInterrupt (h : PendingInv s.toDspCore) :
    PendingInv (dspTraceInterrupt s).toDspCore := by
  unfold Xemu.Dsp.dspTraceInterrupt
  split_ifs
  · exact h.addInterrupt (by decide)
  · exact h

/-- The arbitration keeps the table and never fails. -/
theorem dspArbitrateInterrupts_ok (h : PendingInv s.toDspCore) :
    ∃ t, dspArbitrateInterrupts s = .ok t ∧ PendingInv t.toDspCore := by
  have htr := h.dspTraceInterrupt
  rw [dspArbitrateInterrupts_eq h.ipl_le]
  split_ifs
  · exact ⟨_, rfl, htr⟩
  · cases hfm : FirstMax.firstMax (eligible (dspTraceInterrupt s).toDspCore
        (iplSrOf (dspTraceInterrupt s).toDspCore)) s.interruptIpl 12 with
    | none => exact ⟨_, rfl, htr⟩
    | some i =>
      have hacc := (FirstMax.firstMax_eq_some_iff.mp hfm).accepted
      simp only [eligible, Bool.decide_and, Bool.and_eq_true, decide_eq_true_eq] at hacc
      obtain ⟨ht, htinv⟩ := dspRaiseInterrupt_ok htr hacc.1
      exact ⟨_, ht, htinv⟩

/-- `dsp_postexecute_interrupts` keeps the table and never fails. -/
theorem dspPostexecuteInterrupts_ok (h : PendingInv s.toDspCore) :
    ∃ t, dspPostexecuteInterrupts s = .ok t ∧ PendingInv t.toDspCore := by
  unfold dspPostexecuteInterrupts
  by_cases hrep : s.loopRep ≠ 0
  · exact ⟨s, by rw [if_pos hrep], h⟩
  rw [if_neg hrep]
  by_cases hd : s.interruptState = .disabled
  · rw [if_pos hd]
    rcases hp : interruptPipeline s with u | u
    · exact ⟨u, rfl, h.interruptPipeline (.inl hp)⟩
    · exact dspArbitrateInterrupts_ok (h.interruptPipeline (.inr hp))
  · rw [if_neg hd]
    exact dspArbitrateInterrupts_ok h

/-- An emulation that keeps the pending table. -/
def EmuKeepsPending (dispatch : UInt32 → IntrCore → IntrCore) : Prop :=
  ∀ w s, PendingInv s.toDspCore → PendingInv (dispatch w s).toDspCore

theorem PendingInv.emuJsrImm (h : PendingInv s.toDspCore) : PendingInv (emuJsrImm s).toDspCore := by
  unfold Xemu.Dsp.emuJsrImm
  split_ifs
  · exact ((h.dspStackPush _ _ _).setPc _).setCurInstLen _
  · exact (h.setPc _).setCurInstLen _

/-- One instruction keeps the table and never fails, if its emulation
    keeps the table. -/
theorem dsp56kExecuteInstructionIntr_ok {dispatch : UInt32 → IntrCore → IntrCore}
    (hd : EmuKeepsPending dispatch) (h : PendingInv s.toDspCore) :
    ∃ t, dsp56kExecuteInstructionIntr dispatch s = .ok t ∧ PendingInv t.toDspCore := by
  unfold dsp56kExecuteInstructionIntr
  apply dspPostexecuteInterrupts_ok
  simp only [IntrCore.onCore_toDspCore]
  apply PendingInv.dspPostexecuteUpdatePc
  apply hd
  exact h.congr rfl rfl rfl

/-- From a reset core, a run of any length of instructions whose
    emulations keep the pending table never reaches the `assert(false)`s
    of `dsp_postexecute_interrupts`: the SSI and host-command interrupts
    have level -1 after reset, so `dsp56k_add_interrupt` never makes them
    pending, and the table stays consistent with its counter. -/
theorem dspRun_never_aborts {dispatch : UInt32 → IntrCore → IntrCore} (hd : EmuKeepsPending dispatch)
    (s₀ : IntrCore) (n : Nat) :
    ∃ t, dspRun dispatch n (dsp56kResetCpuIntr s₀) = .ok t ∧ PendingInv t.toDspCore := by
  -- the run lemma, from any state with the table consistent
  suffices hrun : ∀ n s, PendingInv s.toDspCore → ∃ t, dspRun dispatch n s = .ok t ∧ PendingInv t.toDspCore from
    hrun n _ (pendingInv_dsp56kResetCpu s₀.toDspCore)
  intro n
  induction n with
  | zero => exact fun s h => ⟨s, rfl, h⟩
  | succ n ih =>
    intro s h
    obtain ⟨t, ht, htinv⟩ := dsp56kExecuteInstructionIntr_ok hd h
    rw [dspRun_succ_of_ok ht]
    exact ih t htinv

theorem dspRun_never_aborts_jsr :
    ∃ t, dspRun (fun w s => if w &&& 0xfff000 = 0x0d0000 then emuJsrImm s else liftEmu emuNop s) 8
      (dsp56kResetCpuIntr ⟨DspCore.zeroed, .none, 0, 0, 0, 0⟩) = .ok t ∧ PendingInv t.toDspCore :=
  dspRun_never_aborts (fun w s h => by
    split_ifs
    · exact h.emuJsrImm
    · exact h) _ 8

end run

/-! ## Section 8: A fast interrupt

    The pipeline of an interrupt whose two vector words are plain one-word
    instructions, in a program that runs no REP or DO meanwhile: the
    emulations are those of the core (`liftEmu`), which read no interrupt
    state. -/

section fast

variable {d : UInt32 → DspCore → DspCore} {s u : IntrCore} {len : UInt32}

theorem dsp56kExecuteInstructionIntr_liftEmu (s : IntrCore) :
    dsp56kExecuteInstructionIntr (fun w => liftEmu (d w)) s =
      dspPostexecuteInterrupts (s.onCore (dsp56kExecuteInstruction d)) := rfl

/-- Within an interrupt's pipeline, a plain instruction outside REP and DO
    is its straight step, then one step of the pipeline. -/
theorem execute_in_pipeline (hrep : s.loopRep = 0) (hlf : s.registers DspReg.sr &&& lfBit = 0)
    (hdis : s.interruptState = .disabled) (h : PlainAt d (readMemoryP s.toDspCore s.pc) len) :
    dsp56kExecuteInstructionIntr (fun w => liftEmu (d w)) s =
      match interruptPipeline (s.onCore (straightStep d)) with
      | .inl s => .ok s
      | .inr s => dspArbitrateInterrupts s := by
  have hrep' : (straightStep d s.toDspCore).loopRep = 0 := by
    rw [(straightStep_spec h).1.loopRep]
    exact hrep
  have hstep : s.onCore (dsp56kExecuteInstruction d) = s.onCore (straightStep d) := by
    simp only [IntrCore.onCore, execute_of_lf_clear hrep h hlf]
  rw [dsp56kExecuteInstructionIntr_liftEmu, hstep, dspPostexecuteInterrupts,
    if_neg (by simpa using hrep'), if_pos (by simpa using hdis)]

/-- The first call: one more instruction of the program. -/
theorem execute_pipeline_five (hrep : s.loopRep = 0) (hlf : s.registers DspReg.sr &&& lfBit = 0)
    (hdis : s.interruptState = .disabled) (hcount : s.interruptPipelineCount = 5)
    (h : PlainAt d (readMemoryP s.toDspCore s.pc) len) :
    dsp56kExecuteInstructionIntr (fun w => liftEmu (d w)) s =
      .ok { s.onCore (straightStep d) with interruptPipelineCount := 4 } := by
  rw [execute_in_pipeline hrep hlf hdis h, interruptPipeline, IntrCore.onCore_interruptPipelineCount, hcount]
  simp

/-- The second call: one more instruction of the program, then the jump to
    the vector, when its first word is not a `JSR`. -/
theorem execute_pipeline_four (hrep : s.loopRep = 0) (hlf : s.registers DspReg.sr &&& lfBit = 0)
    (hdis : s.interruptState = .disabled) (hcount : s.interruptPipelineCount = 4)
    (h : PlainAt d (readMemoryP s.toDspCore s.pc) len)
    (hfast : isLongInterruptInstr (readMemoryP s.toDspCore s.interruptInstrFetch.toUInt32) = false) :
    dsp56kExecuteInstructionIntr (fun w => liftEmu (d w)) s =
      .ok { s with
        toDspCore := (straightStep d s.toDspCore).setPc s.interruptInstrFetch.toUInt32
        interruptSavePc := (straightStep d s.toDspCore).pc.toUInt16
        interruptPipelineCount := 3 } := by
  have hpram := (straightStep_spec h).1.pram
  rw [execute_in_pipeline hrep hlf hdis h, interruptPipeline, IntrCore.onCore_interruptPipelineCount, hcount]
  simp only [UInt16.reduceToNat]
  rw [if_neg (by simpa [readMemoryP, hpram] using hfast)]
  simp [IntrCore.onCore, hcount]

/-- The third call: the vector's first word, and the test of its second,
    not a `JSR` either. -/
theorem execute_pipeline_three (hrep : s.loopRep = 0) (hlf : s.registers DspReg.sr &&& lfBit = 0)
    (hdis : s.interruptState = .disabled) (hcount : s.interruptPipelineCount = 3)
    (h : PlainAt d (readMemoryP s.toDspCore s.pc) len)
    (hfast : isLongInterruptInstr (readMemoryP s.toDspCore (straightStep d s.toDspCore).pc) = false) :
    dsp56kExecuteInstructionIntr (fun w => liftEmu (d w)) s =
      .ok { s.onCore (straightStep d) with interruptPipelineCount := 2 } := by
  have hpram := (straightStep_spec h).1.pram
  rw [execute_in_pipeline hrep hlf hdis h, interruptPipeline, IntrCore.onCore_interruptPipelineCount, hcount]
  simp only [UInt16.reduceToNat]
  have hfast' : isLongInterruptInstr (readMemoryP (straightStep d s.toDspCore)
      (straightStep d s.toDspCore).pc) = false := by
    simpa [readMemoryP, hpram] using hfast
  simp [IntrCore.onCore, hfast', hcount]

/-- The fourth call: the vector's second word, and the return of a fast
    interrupt to the saved PC. -/
theorem execute_pipeline_two (hrep : s.loopRep = 0) (hlf : s.registers DspReg.sr &&& lfBit = 0)
    (hdis : s.interruptState = .disabled) (hcount : s.interruptPipelineCount = 2)
    (h : PlainAt d (readMemoryP s.toDspCore s.pc) len)
    (hpc : (straightStep d s.toDspCore).pc.toNat = s.interruptInstrFetch.toNat + 2) :
    dsp56kExecuteInstructionIntr (fun w => liftEmu (d w)) s =
      .ok { s with
        toDspCore := (straightStep d s.toDspCore).setPc s.interruptSavePc.toUInt32
        interruptPipelineCount := 1 } := by
  rw [execute_in_pipeline hrep hlf hdis h, interruptPipeline, IntrCore.onCore_interruptPipelineCount, hcount]
  simp only [UInt16.reduceToNat]
  rw [if_pos (by simpa using hpc)]
  simp [IntrCore.onCore, hcount]

/-- A fast interrupt whose pipeline starts with the PC at `P`: the program
    runs two more instructions, at `P` and after it, then the two words of
    the vector, and then the PC is back at the address after those two
    instructions, as `interrupt_save_pc` keeps it in 16 bits.  Nothing else
    happens meanwhile: the core is the four straight steps with the two
    jumps, so no interrupt is taken and the pending table is as the
    instructions leave it. -/
theorem fast_interrupt_inserts_vector {l₀ l₁ : UInt32} (hrep : s.loopRep = 0)
    (hlf : s.registers DspReg.sr &&& lfBit = 0) (hdis : s.interruptState = .disabled)
    (hcount : s.interruptPipelineCount = 5)
    (h₀ : PlainAt d (readMemoryP s.toDspCore s.pc) l₀)
    (h₁ : PlainAt d (readMemoryP s.toDspCore (s.pc + l₀)) l₁)
    (hv₀ : PlainAt d (readMemoryP s.toDspCore s.interruptInstrFetch.toUInt32) 1)
    (hv₁ : PlainAt d (readMemoryP s.toDspCore (s.interruptInstrFetch.toUInt32 + 1)) 1)
    (hfast₀ : isLongInterruptInstr (readMemoryP s.toDspCore s.interruptInstrFetch.toUInt32) = false)
    (hfast₁ : isLongInterruptInstr (readMemoryP s.toDspCore (s.interruptInstrFetch.toUInt32 + 1)) = false) :
    ∃ t, dspRun (fun w => liftEmu (d w)) 4 s = .ok t ∧
      t.toDspCore = (straightStep d (straightStep d
        ((straightStep d (straightStep d s.toDspCore)).setPc s.interruptInstrFetch.toUInt32))).setPc
          (s.pc + l₀ + l₁).toUInt16.toUInt32 ∧
      t.interruptState = .disabled ∧ t.interruptPipelineCount = 1 := by
  -- the cores after each instruction: each keeps the frame of the one before
  obtain ⟨hF₁, hpc₁⟩ := straightStep_spec h₀
  have h₁' : PlainAt d (readMemoryP (straightStep d s.toDspCore) (straightStep d s.toDspCore).pc) l₁ := by
    rwa [readMemoryP, hF₁.pram, hpc₁]
  obtain ⟨hF₂, hpc₂⟩ := straightStep_spec h₁'
  have hF₂' := (hF₁.trans hF₂).trans (Frame.setPc _ s.interruptInstrFetch.toUInt32)
  have hv₀' : PlainAt d (readMemoryP ((straightStep d (straightStep d s.toDspCore)).setPc
      s.interruptInstrFetch.toUInt32) s.interruptInstrFetch.toUInt32) 1 := by
    rwa [readMemoryP, hF₂'.pram]
  obtain ⟨hF₃, hpc₃⟩ := straightStep_spec hv₀'
  have hv₁' : PlainAt d (readMemoryP (straightStep d ((straightStep d (straightStep d s.toDspCore)).setPc
      s.interruptInstrFetch.toUInt32)) (straightStep d ((straightStep d (straightStep d s.toDspCore)).setPc
      s.interruptInstrFetch.toUInt32)).pc) 1 := by
    rw [hpc₃, DspCore.setPc_pc]
    rwa [readMemoryP, hF₃.pram, hF₂'.pram]
  obtain ⟨hF₄, hpc₄⟩ := straightStep_spec hv₁'
  -- the vector is a 16-bit address: its second word's successor does not wrap
  have hvpc : (s.interruptInstrFetch.toUInt32 + 1 + 1).toNat = s.interruptInstrFetch.toNat + 2 := by
    have := s.interruptInstrFetch.toNat_lt
    simp only [UInt32.toNat_add, UInt16.toNat_toUInt32, UInt32.reduceToNat]
    omega
  have hF₃' := hF₂'.trans hF₃
  -- the four calls, each in its case of the pipeline
  rw [dspRun_succ_of_ok (execute_pipeline_five hrep hlf hdis hcount h₀),
    dspRun_succ_of_ok (execute_pipeline_four ?r₄ ?f₄ ?d₄ ?c₄ ?h₄ ?l₄),
    dspRun_succ_of_ok (execute_pipeline_three ?r₃ ?f₃ ?d₃ ?c₃ ?h₃ ?l₃),
    dspRun_succ_of_ok (execute_pipeline_two ?r₂ ?f₂ ?d₂ ?c₂ ?h₂ ?p₂)]
  · refine ⟨_, rfl, ?_, hdis, rfl⟩
    simp [IntrCore.onCore, hpc₂, hpc₁, add_assoc]
  case r₄ => exact hF₁.loopRep.trans hrep
  case f₄ => exact hF₁.lf.trans hlf
  case h₄ => exact h₁'
  case l₄ => simpa [readMemoryP, hF₁.pram] using hfast₀
  case r₃ => exact hF₂'.loopRep.trans hrep
  case f₃ => exact hF₂'.lf.trans hlf
  case h₃ => exact hv₀'
  case l₃ => simpa [readMemoryP, hpc₃, hF₂.pram, hF₁.pram] using hfast₁
  case r₂ => exact hF₃'.loopRep.trans hrep
  case f₂ => exact hF₃'.lf.trans hlf
  case h₂ => exact hv₁'
  case p₂ => simpa [hpc₄, hpc₃] using hvpc
  -- the interrupt state and the counts are those the previous calls left
  case d₄ | d₃ | d₂ => exact hdis
  case c₄ | c₃ | c₂ => rfl

/-- The SWI interrupt just taken, on a zeroed core. -/
def swiTaken : IntrCore := ⟨DspCore.zeroed, .disabled, 0x06, 0, 3, 5⟩

theorem fast_interrupt_inserts_vector_swi :
    ∃ t, dspRun (fun w => liftEmu ((fun _ => emuNop) w)) 4 swiTaken = .ok t ∧
      t.toDspCore = (straightStep (fun _ => emuNop) (straightStep (fun _ => emuNop)
        ((straightStep (fun _ => emuNop) (straightStep (fun _ => emuNop) swiTaken.toDspCore)).setPc
          swiTaken.interruptInstrFetch.toUInt32))).setPc (swiTaken.pc + 1 + 1).toUInt16.toUInt32 ∧
      t.interruptState = .disabled ∧ t.interruptPipelineCount = 1 :=
  fast_interrupt_inserts_vector rfl (by decide) rfl rfl (plainAt_nop _ _ rfl) (plainAt_nop _ _ rfl)
    (plainAt_nop _ _ rfl) (plainAt_nop _ _ rfl) (by decide) (by decide)

end fast

end Xemu.Dsp
