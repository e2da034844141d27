import Xemu.Dsp.LoopControl
import Xemu.Lib.Cache
import Xemu.Lib.Loop

/-! # The DSP's decoded-opcode caches

    Model of instruction decoding in `hw/xbox/mcpx/apu/dsp/dsp_cpu.c` and of
    every path that changes program memory.  A word below `0x100000` is
    decoded by `lookup_opcode_slow`, a search of the table
    `nonparallel_opcodes` for the first entry whose template matches; two
    caches stand in front of it:

    * `pram_opcache[a]`, one entry per P address, filled by
      `dsp56k_execute_instruction` with the entry decoded at `a` and emptied
      by `write_memory_raw` when P memory at `a` is written, and wholesale by
      `dsp_bootstrap`, `mcpx_apu_dsp_init` and `mcpx_apu_reset` (also before a
      saved state is loaded);
    * the `static` 256-slot cache of `lookup_opcode`, shared by the GP and
      the EP, whose slot is the exclusive or of the word's four bytes and
      which compares the whole word before it answers.

    The table is a parameter, as are the emulation functions in it, the
    parallel-move handlers and the peripheral write callback; the only thing
    asked of them is that they write P memory through `write_memory_raw`
    (`WritesPRaw`), which the loop instructions of `Xemu.Dsp.LoopControl`
    are shown to do.  The disassembly functions of the table are not
    modelled.

    The main result, `opcache_matches_slow_decoder`: in every state the
    device can reach, each cache entry is empty or holds what
    `lookup_opcode_slow` gives now, `lookup_opcode` answers as
    `lookup_opcode_slow`, and one cached instruction is the uncached one
    (`dsp56kExecuteInstructionSlow`, which `dsp56kExecuteInstruction` of
    `Xemu.Dsp.LoopControl` runs with the slow decoding as its `dispatch`).
-/

namespace Xemu.Dsp

open Xemu.Word Xemu.Loop Function

/-! ## Section 1: The opcode table and the slow decoder -/

/-- An entry of `nonparallel_opcodes`: its 24-character template, its name,
    its emulation function (`none` for `NULL`) and its extra match function. -/
structure OpcodeEntry where
  template : String
  name : String
  emuFunc : Option (DspCore → DspCore)
  matchFunc : Option (UInt32 → Bool)

/-- The mask and match words of a template, as `dsp56k_reset_cpu` computes
    `nonparallel_matches`: a `0` or a `1` at position `j` fixes bit
    `24 - j - 1` of the word. -/
def templateMasks (template : String) : UInt32 × UInt32 :=
  forLoop 24 (fun j (masks : UInt32 × UInt32) =>
    let c := template.toList.getD j ' '
    if c = '0' ∨ c = '1' then
      (masks.1 ||| ((1 : UInt32) <<< (24 - j - 1 : Nat).toUInt32),
        masks.2 ||| ((c.toNat - Char.toNat '0').toUInt32 <<< (24 - j - 1 : Nat).toUInt32))
    else masks) (0, 0)

/-- The test of `lookup_opcode_slow` for one entry: the template matches, and
    the match function, if the entry has one, accepts the word. -/
def entryMatches (op : UInt32) (e : OpcodeEntry) : Bool :=
  op &&& (templateMasks e.template).1 = (templateMasks e.template).2 &&
    (e.matchFunc.map fun matchFunc => matchFunc op).getD true

/-- `lookup_opcode_slow`: the index of the first matching entry; `none` is
    the `assert(false)` for a word no entry matches. -/
def lookupOpcodeSlow (table : List OpcodeEntry) (op : UInt32) : Option Nat :=
  table.findIdx? (entryMatches op)

/-! ## Section 2: `lookup_opcode` and its shared cache -/

/-- The `static` cache of `lookup_opcode`, shared by both DSP cores: each
    slot the word it was filled for and the entry found for it. -/
abbrev Opcache := Nat → Cache.Slot UInt32 Nat

/-- The slot of a word: the exclusive or of its four bytes. -/
def opcacheTag (op : UInt32) : Nat :=
  (((op >>> (24 : UInt32)) &&& 0xff) ^^^ ((op >>> (16 : UInt32)) &&& 0xff) ^^^
    ((op >>> (8 : UInt32)) &&& 0xff) ^^^ ((op >>> (0 : UInt32)) &&& 0xff)).toNat

/-- `lookup_opcode`: the slot is refilled by `lookup_opcode_slow` unless it
    holds this word with an entry. -/
def lookupOpcode (table : List OpcodeEntry) (opcache : Opcache) (op : UInt32) :
    Option Nat × Opcache :=
  Cache.lookup (lookupOpcodeSlow table) opcacheTag opcache op

/-! ## Section 3: One instruction, with and without the caches -/

/-- `dsp->pram_opcache[a] = op` -/
@[simps -fullyApplied]
def DspCore.setPramOpcache (s : DspCore) (a : Nat) (op : Option Nat) : DspCore :=
  { s with pramOpcache := update s.pramOpcache a op }

/-- What `dsp56k_execute_instruction` runs for entry `i`: its `emu_func`, or
    `emu_undefined` for an entry without one. -/
def emuOfEntry (table : List OpcodeEntry) (emuUndefined : DspCore → DspCore) (i : Nat) :
    DspCore → DspCore :=
  ((table[i]?).bind OpcodeEntry.emuFunc).getD emuUndefined

/-- `dsp56k_execute_instruction`, from the fetch to `dsp_postexecute_update_pc`,
    with both caches: `pram_opcache[pc]` first, then `lookup_opcode`, whose
    answer is stored in `pram_opcache[pc]` before the instruction runs.
    Words from `0x100000` go to `opcodes_parmove[(cur_inst >> 20) & 15]`.
    `none` is the `assert` of `lookup_opcode_slow`. -/
def dsp56kExecuteInstructionCached (table : List OpcodeEntry)
    (opcodesParmove : UInt32 → DspCore → DspCore) (emuUndefined : DspCore → DspCore)
    (opcache : Opcache) (s : DspCore) : Option (Opcache × DspCore) :=
  let s := fetch s
  if s.curInst < 0x100000 then
    let (op, opcache, s) : Option Nat × Opcache × DspCore :=
      match s.pramOpcache s.pc.toNat with
      | some i => (some i, opcache, s)
      | none =>
        let (op, opcache) := lookupOpcode table opcache s.curInst
        (op, opcache, s.setPramOpcache s.pc.toNat op)
    op.map fun i => (opcache, dspPostexecuteUpdatePc (emuOfEntry table emuUndefined i s))
  else
    some (opcache,
      dspPostexecuteUpdatePc (opcodesParmove ((s.curInst >>> (20 : UInt32)) &&& bitmask 4) s))

/-- The decoding without caches: the emulation `lookup_opcode_slow` selects
    for a word, or the parallel-move handler. -/
def decodeSlow (table : List OpcodeEntry) (opcodesParmove : UInt32 → DspCore → DspCore)
    (emuUndefined : DspCore → DspCore) (w : UInt32) : Option (DspCore → DspCore) :=
  if w < 0x100000 then (lookupOpcodeSlow table w).map (emuOfEntry table emuUndefined)
  else some (opcodesParmove ((w >>> (20 : UInt32)) &&& bitmask 4))

/-- The reference: the same instruction decoded by `lookup_opcode_slow`
    alone, with no cache read or written. -/
def dsp56kExecuteInstructionSlow (table : List OpcodeEntry)
    (opcodesParmove : UInt32 → DspCore → DspCore) (emuUndefined : DspCore → DspCore)
    (s : DspCore) : Option DspCore :=
  (decodeSlow table opcodesParmove emuUndefined (readMemoryP s s.pc)).map fun emu =>
    dsp56kExecuteInstruction (fun _ => emu) s

/-- What the cached instruction leaves in `pram_opcache` before the
    instruction runs, on a word below `0x100000`: the entry the slow decoder
    finds at the PC. -/
def recordOpcache (table : List OpcodeEntry) (s : DspCore) : DspCore :=
  if readMemoryP s s.pc < 0x100000 then
    s.setPramOpcache s.pc.toNat (lookupOpcodeSlow table (readMemoryP s s.pc))
  else s

/-! ## Section 4: Writing P memory through `write_memory_raw` -/

/-- From `s` to `t`, P memory changes only at addresses whose cache entry is
    empty afterwards, and cache entries change only by being emptied. -/
def InvalidatesP (s t : DspCore) : Prop :=
  Cache.Invalidates s.pram s.pramOpcache t.pram t.pramOpcache

/-- A function on a core that writes P memory only as `write_memory_raw`
    does. -/
def WritesPRaw (f : DspCore → DspCore) : Prop := ∀ s, InvalidatesP s (f s)

/-- A function on a core that leaves P memory and its cache alone. -/
def KeepsP (f : DspCore → DspCore) : Prop :=
  ∀ s, (f s).pram = s.pram ∧ (f s).pramOpcache = s.pramOpcache

theorem KeepsP.writesPRaw {f : DspCore → DspCore} (h : KeepsP f) : WritesPRaw f := by
  intro s a
  obtain ⟨hp, hc⟩ := h s
  exact Or.inl ⟨by rw [hp], by rw [hc]⟩

theorem WritesPRaw.comp {f g : DspCore → DspCore} (hf : WritesPRaw f) (hg : WritesPRaw g) :
    WritesPRaw (f ∘ g) :=
  fun s => (hg s).trans (hf (g s))

/-- The coherence of a core's `pram_opcache` with `lookup_opcode_slow`. -/
abbrev PramCoherent (table : List OpcodeEntry) (s : DspCore) : Prop :=
  Cache.Coherent (lookupOpcodeSlow table) s.pram s.pramOpcache

theorem PramCoherent.of_writesPRaw {table : List OpcodeEntry} {f : DspCore → DspCore}
    {s : DspCore} (h : PramCoherent table s) (hf : WritesPRaw f) : PramCoherent table (f s) :=
  Cache.Coherent.of_invalidates h (hf s)

/-- `write_memory_raw` writes P memory as `write_memory_raw`, when the
    peripheral callback does. -/
theorem writesPRaw_writeMemoryRaw (writePeripheral : DspCore → UInt32 → UInt32 → DspCore)
    (hwp : ∀ a v, WritesPRaw fun s => writePeripheral s a v) (space : DspSpace)
    (address value : UInt32) : WritesPRaw fun s => writeMemoryRaw writePeripheral s space address value := by
  intro s
  cases space with
  | x =>
    simp only [writeMemoryRaw]
    split_ifs
    · exact hwp address value s
    all_goals exact Cache.Invalidates.refl _ _
  | y => exact Cache.Invalidates.refl _ _
  | p => exact Cache.invalidates_write s.pram s.pramOpcache address.toNat value

/-- The words a DSP DMA transfer writes into DSP memory, one
    `dsp56k_write_memory` per word: `count` words from `address` on. -/
def dmaWriteWords (writePeripheral : DspCore → UInt32 → UInt32 → DspCore) (space : DspSpace)
    (address : UInt32) (count : Nat) (value : Nat → UInt32) (s : DspCore) : DspCore :=
  forLoop count (fun i s => writeMemoryRaw writePeripheral s space (address + i.toUInt32) (value i)) s

/-- A DMA transfer is a run of `write_memory_raw` calls; the invariant rule
    of the loop carries `InvalidatesP` from the start over every word. -/
theorem writesPRaw_dmaWriteWords (writePeripheral : DspCore → UInt32 → UInt32 → DspCore)
    (hwp : ∀ a v, WritesPRaw fun s => writePeripheral s a v) (space : DspSpace)
    (address : UInt32) (count : Nat) (value : Nat → UInt32) :
    WritesPRaw (dmaWriteWords writePeripheral space address count value) := by
  intro s
  apply forLoop_inv (fun _ t => InvalidatesP s t) count _ s (Cache.Invalidates.refl _ _)
  intro i t _ ht
  exact ht.trans (writesPRaw_writeMemoryRaw writePeripheral hwp space _ _ t)

/-! ## Section 5: What keeps P memory -/

theorem keepsP_dsp56kAddInterrupt (inter : Nat) : KeepsP fun s => dsp56kAddInterrupt s inter := by
  intro s
  dsimp only
  unfold dsp56kAddInterrupt
  split_ifs <;> exact ⟨rfl, rfl⟩

theorem keepsP_dspStackPush (curpc cursr : UInt32) (sshOnly : Bool) :
    KeepsP fun s => dspStackPush s curpc cursr sshOnly := by
  intro s
  simp only [dspStackPush]
  split_ifs <;> simp [keepsP_dsp56kAddInterrupt _ s]

theorem keepsP_dspStackPop : KeepsP fun s => (dspStackPop s).2.2 := by
  intro s
  simp only [dspStackPop]
  split_ifs <;> simp [keepsP_dsp56kAddInterrupt _ s]

theorem keepsP_fetch : KeepsP fetch := fun _ => ⟨rfl, rfl⟩

theorem keepsP_dspPostexecuteUpdatePc : KeepsP dspPostexecuteUpdatePc := by
  intro s
  simp only [dspPostexecuteUpdatePc, repUpdate, loopUpdate, loopEnd, exitLoop, advancePc]
  split_ifs <;> simp [keepsP_dspStackPop _]

theorem keepsP_enterLoop (la : UInt32) : KeepsP fun s => enterLoop s la := by
  intro s
  simp [enterLoop, keepsP_dspStackPush _ _ _ s, keepsP_dspStackPush _ _ _ _]

theorem keepsP_readCountReg (numreg : Nat) : KeepsP fun s => (readCountReg s numreg).2 := by
  intro s
  simp only [readCountReg, emuPmReadAccu24]
  split_ifs <;> simp

/-- The loop instructions of `Xemu.Dsp.LoopControl` leave P memory and its
    cache alone. -/
theorem keepsP_loopEmus (readPeripheral : DspCore → UInt32 → UInt32) :
    KeepsP emuDoImm ∧ KeepsP (emuDoAa readPeripheral) ∧ KeepsP emuDoReg ∧ KeepsP emuDorImm ∧
      KeepsP emuDorReg ∧ KeepsP emuEnddo ∧ KeepsP emuRepImm ∧
      KeepsP (emuRepAa readPeripheral) ∧ KeepsP emuRepReg ∧ KeepsP emuNop := by
  refine ⟨?_, ?_, ?_, ?_, ?_, ?_, ?_, ?_, ?_, fun _ => ⟨rfl, rfl⟩⟩
  all_goals intro s
  · simp [emuDoImm, keepsP_enterLoop _ s]
  · simp [emuDoAa, keepsP_enterLoop _ s]
  · simp [emuDoReg, keepsP_dspStackPush _ _ _ _, keepsP_readCountReg _ _]
  · simp [emuDorImm, keepsP_enterLoop _ s]
  · simp [emuDorReg, keepsP_enterLoop _ s, keepsP_readCountReg _ _]
  · simp [emuEnddo, exitLoop, keepsP_dspStackPop s, keepsP_dspStackPop _]
  · simp [emuRepImm, enterRep]
  · simp [emuRepAa, enterRep]
  · simp [emuRepReg, enterRep, keepsP_readCountReg _ _]

/-! ## Section 6: The cached instruction against the slow one -/

/-- What the model asks of the code it does not translate: the emulation
    functions of the table, the parallel-move handlers and `emu_undefined`
    write P memory only through `write_memory_raw`. -/
structure EmusWritePRaw (table : List OpcodeEntry) (opcodesParmove : UInt32 → DspCore → DspCore)
    (emuUndefined : DspCore → DspCore) : Prop where
  entries : ∀ e ∈ table, ∀ f, e.emuFunc = some f → WritesPRaw f
  parmove : ∀ k, WritesPRaw (opcodesParmove k)
  undefined : WritesPRaw emuUndefined

section decoding

variable {table : List OpcodeEntry} {opcodesParmove : UInt32 → DspCore → DspCore}
  {emuUndefined : DspCore → DspCore}

theorem EmusWritePRaw.emuOfEntry (h : EmusWritePRaw table opcodesParmove emuUndefined) (i : Nat) :
    WritesPRaw (emuOfEntry table emuUndefined i) := by
  unfold Xemu.Dsp.emuOfEntry
  cases he : table[i]? with
  | none => exact h.undefined
  | some e =>
    cases hf : e.emuFunc with
    | none => simpa [hf] using h.undefined
    | some f =>
      have hmem : e ∈ table := List.mem_of_getElem? he
      simpa [hf] using h.entries e hmem f hf

theorem EmusWritePRaw.decodeSlow (h : EmusWritePRaw table opcodesParmove emuUndefined)
    {w : UInt32} {emu : DspCore → DspCore}
    (hd : decodeSlow table opcodesParmove emuUndefined w = some emu) : WritesPRaw emu := by
  unfold Xemu.Dsp.decodeSlow at hd
  split_ifs at hd
  · obtain ⟨i, -, rfl⟩ := Option.map_eq_some_iff.mp hd
    exact h.emuOfEntry i
  · cases hd
    exact h.parmove _

/-- The uncached instruction keeps `pram_opcache` coherent. -/
theorem executeSlow_coherent (h : EmusWritePRaw table opcodesParmove emuUndefined) {s t : DspCore}
    (hs : PramCoherent table s)
    (hstep : dsp56kExecuteInstructionSlow table opcodesParmove emuUndefined s = some t) :
    PramCoherent table t := by
  obtain ⟨emu, hd, rfl⟩ := Option.map_eq_some_iff.mp hstep
  have hfetch : PramCoherent table (fetch s) := hs.of_writesPRaw keepsP_fetch.writesPRaw
  exact (hfetch.of_writesPRaw (h.decodeSlow hd)).of_writesPRaw
    keepsP_dspPostexecuteUpdatePc.writesPRaw

/-- Recording the slow decoder's entry keeps `pram_opcache` coherent. -/
theorem recordOpcache_coherent {s : DspCore} (hs : PramCoherent table s) :
    PramCoherent table (recordOpcache table s) := by
  unfold recordOpcache
  split_ifs
  · exact hs.record s.pc.toNat
  · exact hs

/-- Fetching and recording touch different fields. -/
theorem fetch_setPramOpcache (s : DspCore) (a : Nat) (op : Option Nat) :
    fetch (s.setPramOpcache a op) = (fetch s).setPramOpcache a op := rfl

/-- With coherent caches, the cached instruction runs as the slow one on the
    state with the slow decoder's entry recorded, and leaves the shared
    cache coherent.  The cases are those of the source: a parallel move,
    a hit in `pram_opcache`, and a miss that goes to `lookup_opcode`. -/
theorem executeCached_spec {g : Opcache} {s : DspCore} (hs : PramCoherent table s)
    (hg : Cache.SlotsCoherent (lookupOpcodeSlow table) g) :
    (dsp56kExecuteInstructionCached table opcodesParmove emuUndefined g s).map Prod.snd =
      dsp56kExecuteInstructionSlow table opcodesParmove emuUndefined (recordOpcache table s) ∧
    ∀ g' t, dsp56kExecuteInstructionCached table opcodesParmove emuUndefined g s = some (g', t) →
      Cache.SlotsCoherent (lookupOpcodeSlow table) g' := by
  by_cases hw : readMemoryP s s.pc < 0x100000
  · cases hc : s.pramOpcache s.pc.toNat with
    | some i =>
      -- a hit: coherence says the entry is the slow decoder's, so recording is no change
      have hslow : lookupOpcodeSlow table (readMemoryP s s.pc) = some i := hs.eq_of_some hc
      have hrec : recordOpcache table s = s := by
        simp only [recordOpcache, if_pos hw, DspCore.setPramOpcache]
        rw [readMemoryP, hs.record_eq hc]
      refine ⟨?_, ?_⟩
      · simp [dsp56kExecuteInstructionCached, dsp56kExecuteInstructionSlow, decodeSlow,
          dsp56kExecuteInstruction, hw, hc, hrec, hslow]
      · intro g' t hstep
        simp only [dsp56kExecuteInstructionCached, fetch_curInst, fetch_pramOpcache, fetch_pc,
          hw, if_true, hc, Option.map_some, Option.some.injEq, Prod.mk.injEq] at hstep
        rw [← hstep.1]
        exact hg
    | none =>
      -- a miss: `lookup_opcode` answers as the slow decoder and keeps its cache coherent
      obtain ⟨hlook, hg'⟩ := Cache.lookup_spec opcacheTag hg (readMemoryP s s.pc)
      have hlook' : (lookupOpcode table g (readMemoryP s s.pc)).1 =
          lookupOpcodeSlow table (readMemoryP s s.pc) := hlook
      have hcached : dsp56kExecuteInstructionCached table opcodesParmove emuUndefined g s =
          (lookupOpcode table g (readMemoryP s s.pc)).1.map fun i =>
            ((lookupOpcode table g (readMemoryP s s.pc)).2,
              dspPostexecuteUpdatePc (emuOfEntry table emuUndefined i
                ((fetch s).setPramOpcache s.pc.toNat (lookupOpcode table g (readMemoryP s s.pc)).1))) := by
        simp only [dsp56kExecuteInstructionCached, fetch_curInst, fetch_pramOpcache, fetch_pc, hw,
          if_true, hc]
      have hrec : recordOpcache table s =
          s.setPramOpcache s.pc.toNat (lookupOpcodeSlow table (readMemoryP s s.pc)) := by
        rw [recordOpcache, if_pos hw]
      rw [hcached, hlook']
      refine ⟨?_, ?_⟩
      · rw [hrec, dsp56kExecuteInstructionSlow, Option.map_map]
        simp only [decodeSlow, readMemoryP, DspCore.setPramOpcache_pram, DspCore.setPramOpcache_pc]
        rw [readMemoryP] at hw
        simp [hw, dsp56kExecuteInstruction, fetch_setPramOpcache, Function.comp_def]
      · intro g' t hstep
        obtain ⟨i, -, hi⟩ := Option.map_eq_some_iff.mp hstep
        obtain ⟨rfl, -⟩ := Prod.mk.inj hi
        exact hg'
  · -- a parallel move: no cache is read or written
    have hrec : recordOpcache table s = s := by simp [recordOpcache, hw]
    refine ⟨?_, ?_⟩
    · simp [dsp56kExecuteInstructionCached, dsp56kExecuteInstructionSlow, decodeSlow,
        dsp56kExecuteInstruction, hw, hrec]
    · intro g' t hstep
      simp only [dsp56kExecuteInstructionCached, fetch_curInst, hw, if_false,
        Option.some.injEq, Prod.mk.injEq] at hstep
      rw [← hstep.1]
      exact hg

end decoding

/-! ## Section 7: The two DSPs and what happens to them -/

namespace DspReg

/-- `DSP_REG_OMR` -/
abbrev omr : Nat := 0x3a

end DspReg

/-- `DSP_YRAM_SIZE` -/
abbrev dspYramSize : Nat := 2048

/-- `dsp56k_reset_cpu` on the fields of the model: the system stack, the
    registers (`OMR = 2`, `M0`..`M7` = `0xffff`, the rest 0), the PC, the
    pending interrupts and their levels, and `loop_rep`.  P memory and its
    cache are not touched.  (The one-time computation of
    `nonparallel_matches` is `templateMasks`, evaluated where it is used.) -/
def dsp56kResetCpu (s : DspCore) : DspCore :=
  { s with
    stack := fun _ _ => 0
    registers := fun r =>
      if r = DspReg.omr then 0x02 else if DspReg.m0 ≤ r ∧ r < DspReg.m0 + 8 then 0x00ffff else 0
    pc := 0
    interruptIsPending := fun _ => 0
    interruptCounter := 0
    interruptIpl := fun i => if i < 5 then 3 else if i < 12 then -1 else s.interruptIpl i
    loopRep := 0 }

/-- `dsp_reset` -/
def dspReset (s : DspCore) : DspCore := dsp56kResetCpu s

theorem keepsP_dspReset : KeepsP dspReset := fun _ => ⟨rfl, rfl⟩

/-- `dsp_init`: a core zeroed by `memset`, then reset. -/
def dspInit : DspCore :=
  dspReset
    { pc := 0, registers := fun _ => 0, stack := fun _ _ => 0, xram := fun _ => 0,
      yram := fun _ => 0, pram := fun _ => 0, pramOpcache := fun _ => none,
      mixbuffer := fun _ => 0, loopRep := 0, pcOnRep := 0, interruptCounter := 0,
      interruptIpl := fun _ => 0, interruptIsPending := fun _ => 0, curInstLen := 0, curInst := 0 }

/-- `dsp_bootstrap`: the boot ROM copies `0x800` words of scratch memory into
    P memory, the top byte of each word is cleared, and the decoded-opcode
    cache is emptied. -/
def dspBootstrap (scratch : Nat → UInt32) (s : DspCore) : DspCore :=
  let pram := fun a => if a < 0x800 then scratch a else s.pram a
  let pram := forLoop 0x800 (fun i (pram : Nat → UInt32) =>
    if pram i &&& 0xff000000 ≠ 0 then update pram i (pram i &&& 0x00ffffff) else pram) pram
  { s with pram := pram, pramOpcache := fun _ => none }

/-- The two DSPs of the APU: the global processor and the encode processor. -/
inductive DspId
  | gp
  | ep
deriving DecidableEq, Repr

/-- The two DSP cores and the `static` cache of `lookup_opcode` they share. -/
structure ApuDsp where
  core : DspId → DspCore
  opcache : Opcache

/-- The core `d` replaced by `s`. -/
def ApuDsp.setCore (m : ApuDsp) (d : DspId) (s : DspCore) : ApuDsp :=
  { m with core := update m.core d s }

/-- `mcpx_apu_dsp_init`: both cores from `dsp_init`, their P memory filled
    with `0xCACACACA` and their cache emptied, and the EP's X and Y memory
    filled too; the `static` cache starts zeroed. -/
def mcpxApuDspInit : ApuDsp where
  core d :=
    let s := { dspInit with
      pram := fun a => if a < dspPramSize then 0xCACACACA else dspInit.pram a
      pramOpcache := fun _ => none }
    match d with
    | .gp => s
    | .ep => { s with
        xram := fun a => if a < dspXramSize.toNat then 0xCACACACA else s.xram a
        yram := fun a => if a < dspYramSize then 0xCACACACA else s.yram a }
  opcache := fun _ => ⟨0, none⟩

/-- `mcpx_apu_reset`, on the DSPs: both `pram_opcache` tables are emptied;
    the `static` cache of `lookup_opcode` is not. -/
def mcpxApuReset (m : ApuDsp) : ApuDsp :=
  { m with core := fun d => { m.core d with pramOpcache := fun _ => none } }

/-- Loading a saved state: `mcpx_apu_pre_load` resets the APU, then the saved
    fields of each core, among which `pram_opcache` is not, are restored. -/
def mcpxApuLoad (m : ApuDsp) (saved : DspId → DspCore) : ApuDsp :=
  let m := mcpxApuReset m
  { m with core := fun d => { saved d with pramOpcache := (m.core d).pramOpcache } }

section device

variable (table : List OpcodeEntry) (opcodesParmove : UInt32 → DspCore → DspCore)
  (emuUndefined : DspCore → DspCore) (writePeripheral : DspCore → UInt32 → UInt32 → DspCore)

/-- One thing that happens to the DSPs: an instruction of `dsp_run`, the rest
    of `dsp_run` and register access through MMIO (whatever keeps P memory
    and its cache), `dsp_write_memory`, a DMA transfer into DSP memory,
    `dsp_reset` and `dsp_bootstrap` from a write of the reset register,
    `mcpx_apu_reset`, and the load of a saved state. -/
inductive DspStep : ApuDsp → ApuDsp → Prop
  | execute (m : ApuDsp) (d : DspId) (opcache : Opcache) (s : DspCore)
      (h : dsp56kExecuteInstructionCached table opcodesParmove emuUndefined m.opcache (m.core d) =
        some (opcache, s)) :
      DspStep m { core := update m.core d s, opcache := opcache }
  | other (m : ApuDsp) (d : DspId) (f : DspCore → DspCore) (hf : KeepsP f) :
      DspStep m (m.setCore d (f (m.core d)))
  | writeMemory (m : ApuDsp) (d : DspId) (space : DspSpace) (address value : UInt32) :
      DspStep m (m.setCore d (writeMemoryRaw writePeripheral (m.core d) space address value))
  | dma (m : ApuDsp) (d : DspId) (space : DspSpace) (address : UInt32) (count : Nat)
      (value : Nat → UInt32) :
      DspStep m (m.setCore d (dmaWriteWords writePeripheral space address count value (m.core d)))
  | reset (m : ApuDsp) (d : DspId) : DspStep m (m.setCore d (dspReset (m.core d)))
  | bootstrap (m : ApuDsp) (d : DspId) (scratch : Nat → UInt32) :
      DspStep m (m.setCore d (dspBootstrap scratch (m.core d)))
  | apuReset (m : ApuDsp) : DspStep m (mcpxApuReset m)
  | load (m : ApuDsp) (saved : DspId → DspCore) : DspStep m (mcpxApuLoad m saved)

/-- The states of the DSPs reachable from `mcpx_apu_dsp_init`. -/
inductive Reachable : ApuDsp → Prop
  | init : Reachable mcpxApuDspInit
  | step {m m' : ApuDsp} :
      Reachable m → DspStep table opcodesParmove emuUndefined writePeripheral m m' → Reachable m'

end device

/-! ## Section 8: The caches agree with the slow decoder -/

/-- The invariant of the caches: each core's `pram_opcache`, and the shared
    cache of `lookup_opcode`, agree with `lookup_opcode_slow`. -/
structure OpcacheInv (table : List OpcodeEntry) (m : ApuDsp) : Prop where
  pram : ∀ d, PramCoherent table (m.core d)
  shared : Cache.SlotsCoherent (lookupOpcodeSlow table) m.opcache

section invariant

variable {table : List OpcodeEntry} {opcodesParmove : UInt32 → DspCore → DspCore}
  {emuUndefined : DspCore → DspCore} {writePeripheral : DspCore → UInt32 → UInt32 → DspCore}

theorem opcacheInv_init : OpcacheInv table mcpxApuDspInit := by
  refine ⟨fun d => ?_, Cache.slotsCoherent_const _ 0⟩
  cases d <;> exact Cache.coherent_empty _

/-- Replacing one core by a coherent one keeps the invariant. -/
theorem OpcacheInv.setCore {m : ApuDsp} (h : OpcacheInv table m) (d : DspId) {s : DspCore}
    (hs : PramCoherent table s) : OpcacheInv table (m.setCore d s) := by
  refine ⟨fun d' => ?_, h.shared⟩
  by_cases hd : d' = d
  · subst hd
    simpa [ApuDsp.setCore] using hs
  · simpa [ApuDsp.setCore, update_of_ne hd] using h.pram d'

/-- Every step keeps the invariant; the cases are the steps' constructors. -/
theorem opcacheInv_step (hemus : EmusWritePRaw table opcodesParmove emuUndefined)
    (hwp : ∀ a v, WritesPRaw fun s => writePeripheral s a v) {m m' : ApuDsp}
    (h : OpcacheInv table m) (hstep : DspStep table opcodesParmove emuUndefined writePeripheral m m') :
    OpcacheInv table m' := by
  cases hstep with
  | execute d opcache s hexec =>
    -- the instruction runs as the slow one on a coherent state
    obtain ⟨hslow, hshared⟩ := executeCached_spec (h.pram d) h.shared
    rw [hexec] at hslow
    have hs : PramCoherent table s :=
      executeSlow_coherent hemus (recordOpcache_coherent (h.pram d)) hslow.symm
    have hinv : OpcacheInv table { m with opcache := opcache } := ⟨h.pram, hshared opcache s hexec⟩
    exact hinv.setCore d hs
  | other d f hf => exact h.setCore d ((h.pram d).of_writesPRaw hf.writesPRaw)
  | writeMemory d space address value =>
    exact h.setCore d ((h.pram d).of_writesPRaw (writesPRaw_writeMemoryRaw _ hwp space address value))
  | dma d space address count value =>
    exact h.setCore d ((h.pram d).of_writesPRaw (writesPRaw_dmaWriteWords _ hwp space address count value))
  | reset d => exact h.setCore d ((h.pram d).of_writesPRaw keepsP_dspReset.writesPRaw)
  | bootstrap d scratch => exact h.setCore d (Cache.coherent_empty _)
  | apuReset => exact ⟨fun _ => Cache.coherent_empty _, h.shared⟩
  | load saved => exact ⟨fun _ => Cache.coherent_empty _, h.shared⟩

/-- The invariant holds in every reachable state; the induction is on the
    run from `mcpx_apu_dsp_init`. -/
theorem reachable_opcacheInv (hemus : EmusWritePRaw table opcodesParmove emuUndefined)
    (hwp : ∀ a v, WritesPRaw fun s => writePeripheral s a v) {m : ApuDsp}
    (hm : Reachable table opcodesParmove emuUndefined writePeripheral m) : OpcacheInv table m := by
  induction hm with
  | init => exact opcacheInv_init
  | step _ hstep ih => exact opcacheInv_step hemus hwp ih hstep

end invariant

/-- In every reachable state of the two DSPs, each `pram_opcache` entry is
    empty or the entry `lookup_opcode_slow` finds for the word now in P
    memory, `lookup_opcode` answers every word as `lookup_opcode_slow`, and
    an instruction run with the caches is the one run without them, on the
    state with the slow decoder's entry recorded in `pram_opcache`. -/
theorem opcache_matches_slow_decoder {table : List OpcodeEntry}
    {opcodesParmove : UInt32 → DspCore → DspCore} {emuUndefined : DspCore → DspCore}
    {writePeripheral : DspCore → UInt32 → UInt32 → DspCore}
    (hemus : EmusWritePRaw table opcodesParmove emuUndefined)
    (hwp : ∀ a v, WritesPRaw fun s => writePeripheral s a v) {m : ApuDsp}
    (hm : Reachable table opcodesParmove emuUndefined writePeripheral m) :
    (∀ d a, (m.core d).pramOpcache a = none ∨
      (m.core d).pramOpcache a = lookupOpcodeSlow table ((m.core d).pram a)) ∧
    (∀ op, (lookupOpcode table m.opcache op).1 = lookupOpcodeSlow table op) ∧
    (∀ d, (dsp56kExecuteInstructionCached table opcodesParmove emuUndefined m.opcache
        (m.core d)).map Prod.snd =
      dsp56kExecuteInstructionSlow table opcodesParmove emuUndefined (recordOpcache table (m.core d))) := by
  have hinv := reachable_opcacheInv hemus hwp hm
  refine ⟨fun d => hinv.pram d, fun op => ?_, fun d => ?_⟩
  · exact (Cache.lookup_spec opcacheTag hinv.shared op).1
  · exact (executeCached_spec (hinv.pram d) hinv.shared).1

/-! ## Section 9: The loop instructions' entries -/

/-- The entries of `nonparallel_opcodes` for the loop instructions whose
    emulation `Xemu.Dsp.LoopControl` models, in the table's order (the
    effective-address forms, with their match function, are left out);
    `DOR [X or Y]:aa` has no emulation function in the source. -/
def loopOpcodes (readPeripheral : DspCore → UInt32 → UInt32) : List OpcodeEntry :=
  [⟨"0000011000aaaaaa0S000000", "do [X or Y]:aa, expr", some (emuDoAa readPeripheral), none⟩,
   ⟨"00000110iiiiiiii1000hhhh", "do #xxx, expr", some emuDoImm, none⟩,
   ⟨"0000011011DDDDDD00000000", "do S, expr", some emuDoReg, none⟩,
   ⟨"0000011000aaaaaa0S010000", "dor [X or Y]:aa, label", none, none⟩,
   ⟨"00000110iiiiiiii1001hhhh", "dor #xxx, label", some emuDorImm, none⟩,
   ⟨"0000011011DDDDDD00010000", "dor S, label", some emuDorReg, none⟩,
   ⟨"000000000000000010001100", "enddo", some emuEnddo, none⟩,
   ⟨"000000000000000000000000", "nop", some emuNop, none⟩,
   ⟨"0000011000aaaaaa0S100000", "rep [X or Y]:aa", some (emuRepAa readPeripheral), none⟩,
   ⟨"00000110iiiiiiii1010hhhh", "rep #xxx", some emuRepImm, none⟩,
   ⟨"0000011011dddddd00100000", "rep S", some emuRepReg, none⟩]

/-- The loop instructions write no P memory, so a table of them, with
    `NOP` for the parallel moves and `emu_undefined`, meets the model's
    requirement. -/
theorem emusWritePRaw_loopOpcodes (readPeripheral : DspCore → UInt32 → UInt32) :
    EmusWritePRaw (loopOpcodes readPeripheral) (fun _ => emuNop) emuNop := by
  obtain ⟨hdoImm, hdoAa, hdoReg, hdorImm, hdorReg, henddo, hrepImm, hrepAa, hrepReg, hnop⟩ :=
    keepsP_loopEmus readPeripheral
  refine ⟨?_, fun _ => hnop.writesPRaw, hnop.writesPRaw⟩
  intro e he f hf
  simp only [loopOpcodes, List.mem_cons, List.not_mem_nil, or_false] at he
  -- one goal per entry with an emulation function, in the table's order
  rcases he with rfl | rfl | rfl | rfl | rfl | rfl | rfl | rfl | rfl | rfl | rfl <;> cases hf
  exacts [hdoAa.writesPRaw, hdoImm.writesPRaw, hdoReg.writesPRaw, hdorImm.writesPRaw,
    hdorReg.writesPRaw, henddo.writesPRaw, hnop.writesPRaw, hrepAa.writesPRaw,
    hrepImm.writesPRaw, hrepReg.writesPRaw]

/-- The GP after its P memory at address 0 is written with `DO #1` through
    `dsp_write_memory`, decoding with the loop instructions' entries: its
    caches agree with the slow decoder. -/
theorem opcache_matches_slow_decoder_after_write :
    let table := loopOpcodes fun _ _ => 0
    let m := mcpxApuDspInit.setCore .gp
      (writeMemoryRaw (fun s _ _ => s) (mcpxApuDspInit.core .gp) .p 0 0x060180)
    EmusWritePRaw table (fun _ => emuNop) emuNop ∧
    (∀ a v, WritesPRaw fun s => (fun s _ _ => s : DspCore → UInt32 → UInt32 → DspCore) s a v) ∧
    Reachable table (fun _ => emuNop) emuNop (fun s _ _ => s) m ∧
    (∀ d a, (m.core d).pramOpcache a = none ∨
      (m.core d).pramOpcache a = lookupOpcodeSlow table ((m.core d).pram a)) ∧
    (∀ op, (lookupOpcode table m.opcache op).1 = lookupOpcodeSlow table op) ∧
    (∀ d, (dsp56kExecuteInstructionCached table (fun _ => emuNop) emuNop m.opcache
        (m.core d)).map Prod.snd =
      dsp56kExecuteInstructionSlow table (fun _ => emuNop) emuNop (recordOpcache table (m.core d))) := by
  intro table m
  have hemus := emusWritePRaw_loopOpcodes fun _ _ => 0
  have hwp : ∀ a v, WritesPRaw fun s => (fun s _ _ => s : DspCore → UInt32 → UInt32 → DspCore) s a v :=
    fun _ _ => KeepsP.writesPRaw fun _ => ⟨rfl, rfl⟩
  have hm : Reachable table (fun _ => emuNop) emuNop (fun s _ _ => s) m :=
    Reachable.step Reachable.init (DspStep.writeMemory _ .gp .p 0 0x060180)
  exact ⟨hemus, hwp, hm, opcache_matches_slow_decoder hemus hwp hm⟩

end Xemu.Dsp
