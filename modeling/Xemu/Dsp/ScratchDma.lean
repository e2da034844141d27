import Mathlib

/-! # The circular scratch transfers of the DSP DMA

    Model of `scratch_circular_copy` in `hw/xbox/mcpx/apu/dsp/dsp_dma.c`,
    and of the part of `dsp_dma_run` that decodes a block's scratch fields,
    calls it, and writes the scratch offset back into the block.

    The DMA moves a block between DSP memory and the scratch memory of the
    APU through the intermediate `scratch_buf`.  Buffer `0xE` is a circular
    window of `scratch_size` bytes at `scratch_base`: `scratch_circular_copy`
    splits the transfer into `scratch_rw` calls, one per stretch up to the
    end of the window, and wraps the offset to 0 there.  The model records
    the calls; what `scratch_rw` does with them (`scatter_gather_rw`) is
    outside it.  The loop's `size_t` values all fit in 32 bits, so they are
    computed in `UInt32` as the `uint32_t` ones are.

    The results:
    * with `scratch_size ≥ 1` the loop ends, after at most `transfer_size`
      iterations (`scratchCircularCopy_run`); with `scratch_size = 0` it
      never does (`scratchCircularLoop_size_zero`);
    * the calls move buffer byte `k` to or from scratch address
      `scratch_base + (o + k) % scratch_size`, in order, no call crosses the
      end of the window, and the offset left is `(o + t) % scratch_size`,
      which `dsp_dma_run` writes back.
-/

namespace Xemu.Dsp

/-! ## Section 1: The model -/

/-- One `scratch_rw` call: `len` bytes between `&scratch_buf[buf_offset]`
    and scratch address `addr`. -/
structure ScratchRw where
  bufOffset : UInt32
  addr : UInt32
  len : Nat
deriving DecidableEq, Repr

/-- The bytes a call moves: buffer index and scratch address of each. -/
def ScratchRw.bytes (c : ScratchRw) : List (Nat × UInt32) :=
  (List.range c.len).map fun j => (c.bufOffset.toNat + j, c.addr + UInt32.ofNat j)

/-- The `while (transfer_size > 0)` loop of `scratch_circular_copy`, from
    the offset, the bytes left and the buffer offset: the calls it makes
    and the offset it leaves.  `fuel` bounds the iterations; `none` when it
    runs out. -/
def scratchCircularLoop (scratchBase scratchSize : UInt32) (fuel : Nat)
    (scratchOffset transferSize bufOffset : UInt32) : Option (List ScratchRw × UInt32) :=
  if transferSize > 0 then
    match fuel with
    | 0 => none
    | fuel + 1 =>
      let bytesUntilWrap := scratchSize - scratchOffset
      let chunkSize := min transferSize bytesUntilWrap
      let scratchAddr := scratchBase + scratchOffset
      let call : ScratchRw := ⟨bufOffset, scratchAddr, chunkSize.toNat⟩
      -- advance the scratch pointer, wrap if it reached the end
      let scratchOffset := scratchOffset + chunkSize
      let scratchOffset := if scratchOffset ≥ scratchSize then 0 else scratchOffset
      (scratchCircularLoop scratchBase scratchSize fuel scratchOffset (transferSize - chunkSize)
        (bufOffset + chunkSize)).map fun r => (call :: r.1, r.2)
  else some ([], scratchOffset)

/-- `scratch_circular_copy`: the calls and the final `*scratch_offset`.  An
    iteration that moves no byte repeats forever, and one that moves a byte
    leaves one fewer to move, so a run that ends does so within
    `transfer_size` iterations: `none` is a loop that never ends. -/
def scratchCircularCopy (scratchBase scratchOffset scratchSize transferSize : UInt32) :
    Option (List ScratchRw × UInt32) :=
  let scratchOffset := if scratchOffset ≥ scratchSize then 0 else scratchOffset
  scratchCircularLoop scratchBase scratchSize transferSize.toNat scratchOffset transferSize 0

/-- `NODE_CONTROL_DIRECTION` -/
abbrev nodeControlDirection : UInt32 := (1 : UInt32) <<< 1

/-- The item size of a block's `format` field, `none` where the `assert`
    of an unknown format fails. -/
def dspDmaItemSize (format : UInt32) : Option Nat :=
  if format = 1 then some 2
  else if format = 2 ∨ format = 6 then some 4
  else none

/-- The `assert`s on a block's DSP address: the `count` words from
    `dsp_offset` lie in one of X, Y or P memory. -/
def dspDmaOffsetOk (dspOffset count : UInt32) : Bool :=
  if dspOffset < 0x1800 then dspOffset + count < 0x1800
  else if dspOffset ≥ 0x1800 ∧ dspOffset < 0x2000 then dspOffset + count < 0x2000
  else if dspOffset ≥ 0x2800 ∧ dspOffset < 0x3800 then dspOffset + count < 0x3800
  else false

/-- The buffer switch of `dsp_dma_run` on the scratch side: a write
    (`direction`) goes to a FIFO (no scratch call), the circular buffer
    `0xE` or the plain buffer `0xF`; a read comes from `0xE` or `0xF` and
    must not be interleaved.  The calls and the scratch offset after them;
    `none` where an `assert` fails. -/
def dspDmaScratchMove (direction dspInterleave : Bool)
    (bufId scratchBase scratchOffset scratchSize : UInt32) (transferSize : Nat) :
    Option (List ScratchRw × UInt32) :=
  let scratchAddr := scratchBase + scratchOffset
  if direction then
    if bufId ≤ 0x3 then some ([], scratchOffset)
    else if bufId = 0xE then
      scratchCircularCopy scratchBase scratchOffset scratchSize (UInt32.ofNat transferSize)
    else if bufId = 0xF then some ([⟨0, scratchAddr, transferSize⟩], scratchOffset)
    else none
  else if dspInterleave then none
  else if bufId = 0xE then
    scratchCircularCopy scratchBase scratchOffset scratchSize (UInt32.ofNat transferSize)
  else if bufId = 0xF then some ([⟨0, scratchAddr, transferSize⟩], scratchOffset)
  else none

/-- The scratch side of one block of `dsp_dma_run`, from the block's words
    `control`, `count`, `dsp_offset`, `scratch_offset`, `scratch_base` and
    the size word (the size less one): the `scratch_rw` calls and the value
    written back to the block's offset word, if `buffer_offset_writeback`
    is set.  `none` where an `assert` fails.  The DSP memory side of the
    transfer is not modelled. -/
def dspDmaBlockScratch (control count dspOffset scratchOffset scratchBase scratchSizeWord : UInt32) :
    Option (List ScratchRw × Option UInt32) :=
  let scratchSize := scratchSizeWord + 1
  let dspInterleave : Bool := (control >>> 0) &&& 1 != 0
  let direction : Bool := control &&& nodeControlDirection != 0
  let unk2 := (control >>> 2) &&& 0x3
  let bufferOffsetWriteback : Bool := (control >>> 4) &&& 1 != 0
  let bufId := (control >>> 5) &&& 0xf
  let format := (control >>> 10) &&& 0x7
  let unk13 : Bool := (control >>> 13) &&& 1 != 0
  if unk2 ≠ 0 ∨ unk13 then none
  else
    let channelCount := (count &&& 0xF) + 1
    let blockCount := count >>> 4
    match dspDmaItemSize format with
    | none => none
    | some itemSize =>
      if !dspDmaOffsetOk dspOffset count then none
      else
        -- `size_t transfer_size`, recomputed for an interleaved write
        let transferSize : Nat :=
          if direction && dspInterleave then blockCount.toNat * itemSize * channelCount.toNat
          else count.toNat * itemSize
        (dspDmaScratchMove direction dspInterleave bufId scratchBase scratchOffset scratchSize
          transferSize).map fun r => (r.1, if bufferOffsetWriteback then some r.2 else none)

/-! ## Section 2: One iteration -/

section loop

variable (scratchBase scratchSize : UInt32)

/-- The wrap of `*scratch_offset` after a chunk that stops at the end of the
    window at the latest is the offset modulo the size. -/
theorem wrap_toNat (off c : UInt32) (hsize : 0 < scratchSize.toNat)
    (hle : off.toNat + c.toNat ≤ scratchSize.toNat) :
    (if off + c ≥ scratchSize then 0 else off + c).toNat = (off.toNat + c.toNat) % scratchSize.toNat := by
  have hsum : (off + c).toNat = off.toNat + c.toNat := by
    rw [UInt32.toNat_add]
    exact Nat.mod_eq_of_lt (by have := scratchSize.toNat_lt; omega)
  split_ifs with hge
  · -- only at the end exactly
    rw [ge_iff_le, UInt32.le_iff_toNat_le, hsum] at hge
    rw [show off.toNat + c.toNat = scratchSize.toNat by omega, Nat.mod_self]
    rfl
  · rw [ge_iff_le, UInt32.le_iff_toNat_le, hsum] at hge
    rw [hsum, Nat.mod_eq_of_lt (by omega)]

/-- One iteration with bytes left and the offset inside the window: a chunk
    of at least one byte, up to the end of the window. -/
theorem scratchCircularLoop_succ {fuel : Nat} {off t b : UInt32} (ht : 0 < t.toNat) :
    scratchCircularLoop scratchBase scratchSize (fuel + 1) off t b =
      (scratchCircularLoop scratchBase scratchSize fuel
          (if off + min t (scratchSize - off) ≥ scratchSize then 0 else off + min t (scratchSize - off))
          (t - min t (scratchSize - off)) (b + min t (scratchSize - off))).map
        fun r => (⟨b, scratchBase + off, (min t (scratchSize - off)).toNat⟩ :: r.1, r.2) := by
  have hpos : t > 0 := by simpa [UInt32.lt_iff_toNat_lt] using ht
  rw [scratchCircularLoop, if_pos hpos]

/-- A loop with no bytes left ends at once. -/
theorem scratchCircularLoop_done (fuel : Nat) (off b : UInt32) :
    scratchCircularLoop scratchBase scratchSize fuel off 0 b = some ([], off) := by
  rw [scratchCircularLoop.eq_def, if_neg (by simp)]

end loop

/-! ## Section 3: The whole loop -/

/-- What the calls of a run from window offset `off`, moving `t` bytes from
    buffer offset `b`, do: byte `b + k` of the buffer goes to or from scratch
    address `scratch_base + (off + k) % scratch_size`, in order, and each
    call moves at least one byte without crossing the end of the window. -/
structure CircularCalls (scratchBase scratchSize : UInt32) (off t b : Nat) (calls : List ScratchRw) :
    Prop where
  bytes : calls.flatMap ScratchRw.bytes =
    (List.range t).map fun k => (b + k, scratchBase + UInt32.ofNat ((off + k) % scratchSize.toNat))
  within : ∀ c ∈ calls, 0 < c.len ∧
    ∃ o, o + c.len ≤ scratchSize.toNat ∧ c.addr = scratchBase + UInt32.ofNat o

section calls

variable {scratchBase scratchSize : UInt32}

theorem CircularCalls.nil (off b : Nat) : CircularCalls scratchBase scratchSize off 0 b [] :=
  ⟨rfl, fun _ hc => absurd hc List.not_mem_nil⟩

/-- A chunk of `c` bytes up to the end of the window, then the calls from
    where it leaves the offset. -/
theorem CircularCalls.cons {off c t b : Nat} {calls : List ScratchRw} {bufOffset : UInt32}
    (hb : bufOffset.toNat = b) (hc : 0 < c) (hend : off + c ≤ scratchSize.toNat)
    (hrest : CircularCalls scratchBase scratchSize ((off + c) % scratchSize.toNat) t (b + c) calls) :
    CircularCalls scratchBase scratchSize off (c + t) b
      (⟨bufOffset, scratchBase + UInt32.ofNat off, c⟩ :: calls) := by
  constructor
  · -- the chunk's bytes, then those of the rest, shifted by the chunk
    have hchunk : ScratchRw.bytes ⟨bufOffset, scratchBase + UInt32.ofNat off, c⟩ =
        (List.range c).map fun k => (b + k, scratchBase + UInt32.ofNat ((off + k) % scratchSize.toNat)) := by
      refine List.map_congr_left fun k hk => ?_
      have hk : k < c := List.mem_range.mp hk
      rw [hb, Nat.mod_eq_of_lt (by omega), UInt32.ofNat_add, add_assoc]
    rw [List.flatMap_cons, hchunk, hrest.bytes, List.range_add, List.map_append, List.map_map]
    congr 1
    refine List.map_congr_left fun k _ => ?_
    simp only [Function.comp_apply, Nat.mod_add_mod, Nat.add_assoc]
  · intro call hcall
    rcases List.mem_cons.mp hcall with rfl | hcall
    · exact ⟨hc, off, hend, rfl⟩
    · exact hrest.within call hcall

end calls

/-- The run lemma: from an offset inside a non-empty window, with enough
    fuel, the loop ends, its calls are `CircularCalls` and it leaves the
    offset `(off + t) % scratch_size`.  By induction on the fuel; each
    iteration moves at least one byte. -/
theorem scratchCircularLoop_run (scratchBase scratchSize : UInt32) (hsize : 0 < scratchSize.toNat) :
    ∀ (fuel : Nat) (off t b : UInt32), off.toNat < scratchSize.toNat → t.toNat ≤ fuel →
      b.toNat + t.toNat < 2 ^ 32 →
      ∃ calls, scratchCircularLoop scratchBase scratchSize fuel off t b =
          some (calls, UInt32.ofNat ((off.toNat + t.toNat) % scratchSize.toNat)) ∧
        CircularCalls scratchBase scratchSize off.toNat t.toNat b.toNat calls := by
  intro fuel
  induction fuel with
  | zero =>
    intro off t b hoff ht _
    have ht0 : t = 0 := UInt32.toNat_inj.mp (by simpa using ht)
    subst ht0
    refine ⟨[], ?_, CircularCalls.nil _ _⟩
    rw [scratchCircularLoop_done, UInt32.toNat_zero, Nat.add_zero, Nat.mod_eq_of_lt hoff,
      UInt32.ofNat_toNat]
  | succ fuel ih =>
    intro off t b hoff ht hb
    by_cases ht0 : t.toNat = 0
    · have : t = 0 := UInt32.toNat_inj.mp (by simpa using ht0)
      subst this
      refine ⟨[], ?_, CircularCalls.nil _ _⟩
      rw [scratchCircularLoop_done, UInt32.toNat_zero, Nat.add_zero, Nat.mod_eq_of_lt hoff,
        UInt32.ofNat_toNat]
    · -- the chunk: at least one byte, at most up to the end of the window
      set c := min t (scratchSize - off) with hc_def
      have hcNat : c.toNat = min t.toNat (scratchSize.toNat - off.toNat) := by
        rw [hc_def, UInt32.toNat_min, UInt32.toNat_sub_of_le _ _ (UInt32.le_iff_toNat_le.mpr hoff.le)]
      have hsub : (t - c).toNat = t.toNat - c.toNat :=
        UInt32.toNat_sub_of_le _ _ (UInt32.le_iff_toNat_le.mpr (by omega))
      have hbc : (b + c).toNat = b.toNat + c.toNat := by
        rw [UInt32.toNat_add]
        exact Nat.mod_eq_of_lt (by omega)
      have hwrap := wrap_toNat scratchSize off c hsize (by omega)
      have hfinal : ((if off + c ≥ scratchSize then 0 else off + c).toNat + (t - c).toNat) %
          scratchSize.toNat = (off.toNat + t.toNat) % scratchSize.toNat := by
        rw [hwrap, hsub, Nat.mod_add_mod]
        congr 1
        omega
      obtain ⟨calls, hrun, hcalls⟩ := ih (if off + c ≥ scratchSize then 0 else off + c) (t - c) (b + c)
        (by rw [hwrap]; exact Nat.mod_lt _ hsize) (by rw [hsub]; omega) (by rw [hbc, hsub]; omega)
      refine ⟨_, by rw [scratchCircularLoop_succ _ _ (by omega), hrun, Option.map_some, hfinal], ?_⟩
      -- the chunk, then the calls of the rest of the run
      rw [hwrap, hbc] at hcalls
      have hcons := CircularCalls.cons (rfl : b.toNat = b.toNat) (by omega) (by omega) hcalls
      rwa [show c.toNat + (t - c).toNat = t.toNat by omega, UInt32.ofNat_toNat] at hcons

/-- `scratch_circular_copy` with a non-empty window ends; its calls are
    `CircularCalls` from the offset it starts at, 0 when the given one lies
    outside the window, and it leaves `(o + t) % scratch_size`. -/
theorem scratchCircularCopy_run (scratchBase scratchOffset scratchSize transferSize : UInt32)
    (hsize : 0 < scratchSize.toNat) :
    ∃ calls, scratchCircularCopy scratchBase scratchOffset scratchSize transferSize =
        some (calls, UInt32.ofNat (((if scratchOffset ≥ scratchSize then 0 else scratchOffset).toNat +
          transferSize.toNat) % scratchSize.toNat)) ∧
      CircularCalls scratchBase scratchSize (if scratchOffset ≥ scratchSize then 0 else scratchOffset).toNat
        transferSize.toNat 0 calls := by
  have ho : (if scratchOffset ≥ scratchSize then 0 else scratchOffset).toNat < scratchSize.toNat := by
    split_ifs with hge
    · exact hsize
    · rw [ge_iff_le, UInt32.le_iff_toNat_le] at hge
      omega
  have hrun := scratchCircularLoop_run scratchBase scratchSize hsize transferSize.toNat _ transferSize 0
    ho le_rfl (by simpa using transferSize.toNat_lt)
  simpa [scratchCircularCopy] using hrun

/-- With an empty window the loop never ends: `bytes_until_wrap` is 0, so
    every iteration moves nothing and leaves the state as it was. -/
theorem scratchCircularLoop_size_zero (scratchBase : UInt32) (t b : UInt32) (ht : 0 < t.toNat) :
    ∀ fuel, scratchCircularLoop scratchBase 0 fuel 0 t b = none := by
  intro fuel
  induction fuel with
  | zero =>
    have hpos : t > 0 := by simpa [UInt32.lt_iff_toNat_lt] using ht
    rw [scratchCircularLoop, if_pos hpos]
  | succ fuel ih =>
    have hchunk : min t ((0 : UInt32) - 0) = 0 := by
      rw [sub_self]
      exact UInt32.toNat_inj.mp (by rw [UInt32.toNat_min]; simp)
    rw [scratchCircularLoop_succ _ _ ht, hchunk]
    simp only [add_zero, sub_zero, ite_self, ih, Option.map_none]

/-- On buffer `0xE` the switch is `scratch_circular_copy`. -/
theorem dspDmaScratchMove_circular {direction dspInterleave : Bool}
    {scratchBase scratchOffset scratchSize : UInt32} {transferSize : Nat}
    {r : List ScratchRw × UInt32}
    (hres : dspDmaScratchMove direction dspInterleave 0xE scratchBase scratchOffset scratchSize
      transferSize = some r) :
    scratchCircularCopy scratchBase scratchOffset scratchSize (UInt32.ofNat transferSize) = some r := by
  unfold dspDmaScratchMove at hres
  have hnot : ¬(0xE : UInt32) ≤ 0x3 := by decide
  cases direction <;> cases dspInterleave <;> simp [hnot] at hres <;> exact hres

/-- Buffer `0xE` with `buffer_offset_writeback` set: the block's scratch
    calls are those of `scratch_circular_copy` for the block's transfer
    size, and the word written back is the offset it leaves. -/
theorem dspDmaBlockScratch_circular {control count dspOffset scratchOffset scratchBase scratchSizeWord : UInt32}
    {calls : List ScratchRw} {w : Option UInt32}
    (hbuf : (control >>> 5) &&& 0xf = 0xE) (hwb : (control >>> 4) &&& 1 ≠ 0)
    (hres : dspDmaBlockScratch control count dspOffset scratchOffset scratchBase scratchSizeWord =
      some (calls, w)) :
    ∃ t off, scratchCircularCopy scratchBase scratchOffset (scratchSizeWord + 1) t = some (calls, off) ∧
      w = some off := by
  unfold dspDmaBlockScratch at hres
  dsimp only at hres
  -- past the `assert`s, the block is the buffer switch followed by the writeback
  by_cases hunk : (control >>> 2) &&& 0x3 ≠ 0 ∨ ((control >>> 13) &&& 1 != 0) = true
  · rw [if_pos hunk] at hres
    cases hres
  rw [if_neg hunk] at hres
  cases hitem : dspDmaItemSize ((control >>> 10) &&& 0x7) with
  | none =>
    rw [hitem] at hres
    cases hres
  | some itemSize =>
    rw [hitem] at hres
    dsimp only at hres
    by_cases hoff : (!dspDmaOffsetOk dspOffset count) = true
    · rw [if_pos hoff] at hres
      cases hres
    rw [if_neg hoff] at hres
    obtain ⟨⟨calls', off⟩, hr, hcw⟩ := Option.map_eq_some_iff.mp hres
    simp only [Prod.mk.injEq] at hcw
    obtain ⟨rfl, rfl⟩ := hcw
    rw [hbuf] at hr
    exact ⟨_, off, dspDmaScratchMove_circular hr, if_pos (by simpa using hwb)⟩

/-! ## Section 4: The transfers of a block -/

/-- `scratch_circular_copy` on a window of `scratch_size ≥ 1` bytes ends;
    its `scratch_rw` calls move buffer byte `k` to or from scratch address
    `scratch_base + (o + k) % scratch_size` for `k < t`, in order, with the
    offset `o` taken as 0 when it lies outside the window; no call crosses
    the end of the window; and the offset left, `(o + t) % scratch_size`,
    is what `dsp_dma_run` writes back for buffer `0xE`. -/
theorem scratch_circular_copy_wraps (scratchBase scratchOffset scratchSize transferSize : UInt32)
    (hsize : 1 ≤ scratchSize.toNat) :
    (let o := if scratchOffset.toNat ≥ scratchSize.toNat then 0 else scratchOffset.toNat
    (∃ calls, scratchCircularCopy scratchBase scratchOffset scratchSize transferSize =
        some (calls, UInt32.ofNat ((o + transferSize.toNat) % scratchSize.toNat)) ∧
      calls.flatMap ScratchRw.bytes = (List.range transferSize.toNat).map
        (fun k => (k, scratchBase + UInt32.ofNat ((o + k) % scratchSize.toNat))) ∧
      ∀ c ∈ calls, 0 < c.len ∧
        ∃ off, off + c.len ≤ scratchSize.toNat ∧ c.addr = scratchBase + UInt32.ofNat off) ∧
    ∀ (control count dspOffset : UInt32) (calls : List ScratchRw) (w : Option UInt32),
      (control >>> 5) &&& 0xf = 0xE → (control >>> 4) &&& 1 ≠ 0 →
      dspDmaBlockScratch control count dspOffset scratchOffset scratchBase (scratchSize - 1) =
        some (calls, w) →
      ∃ t : UInt32, scratchCircularCopy scratchBase scratchOffset scratchSize t =
          some (calls, UInt32.ofNat ((o + t.toNat) % scratchSize.toNat)) ∧
        w = some (UInt32.ofNat ((o + t.toNat) % scratchSize.toNat))) := by
  intro o
  -- the reset of an offset outside the window, read on `Nat`
  have ho : (if scratchOffset ≥ scratchSize then 0 else scratchOffset).toNat = o := by
    by_cases hge : scratchOffset.toNat ≥ scratchSize.toNat
    · rw [if_pos (UInt32.le_iff_toNat_le.mpr hge)]
      simp [o, hge]
    · rw [if_neg (fun h => hge (UInt32.le_iff_toNat_le.mp h))]
      simp [o, hge]
  obtain ⟨calls, hrun, hcalls⟩ :=
    scratchCircularCopy_run scratchBase scratchOffset scratchSize transferSize (by omega)
  rw [ho] at hrun hcalls
  refine ⟨⟨calls, hrun, by simpa using hcalls.bytes, hcalls.within⟩, ?_⟩
  intro control count dspOffset calls' w hbuf hwb hres
  obtain ⟨t, off, hcopy, rfl⟩ := dspDmaBlockScratch_circular hbuf hwb hres
  rw [sub_add_cancel] at hcopy
  -- the block's copy is one of the runs above, so it leaves the offset they do
  obtain ⟨calls2, hrun2, -⟩ := scratchCircularCopy_run scratchBase scratchOffset scratchSize t (by omega)
  rw [ho, hcopy] at hrun2
  obtain ⟨rfl, rfl⟩ := Prod.mk.inj (Option.some.inj hrun2)
  exact ⟨t, hcopy, rfl⟩

/-- Five bytes into an eight-byte window from offset 6: two bytes up to the
    end, three from its start, and the offset left is 3. -/
theorem scratch_circular_copy_wraps_window8 :
    ∃ calls, scratchCircularCopy 0x100 6 8 5 = some (calls, 3) ∧
      calls.flatMap ScratchRw.bytes = [(0, 0x106), (1, 0x107), (2, 0x100), (3, 0x101), (4, 0x102)] := by
  obtain ⟨⟨calls, hrun, hbytes, -⟩, -⟩ := scratch_circular_copy_wraps 0x100 6 8 5 (by decide)
  exact ⟨calls, hrun, by rw [hbytes]; decide⟩

end Xemu.Dsp
