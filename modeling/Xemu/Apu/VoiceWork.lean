import Mathlib
import Xemu.Lib.Word

/-! # Scheduling the voices of a frame onto the workers

    Model of `get_voice_bin_src_dst` and `voice_work_schedule` in
    `hw/xbox/mcpx/apu/vp/vp.c`.  The voices queued for a frame are handed
    out to `num_workers` worker threads, each with its own mix bins; a
    worker's bins are summed into the frame's once it is done.  A multipass
    (submix) voice reads mix bin 31 of its own worker, so every voice whose
    output it should read has to run on that worker, before it.  The
    scheduler keeps a group open from the first voice that writes bin 31
    until the multipass voice that clears it, and moves to the next worker
    round-robin when no group is open.

    The results:
    * every voice of the queue goes to exactly one worker, and each worker
      gets its voices in queue order (`voiceWorkSchedule_queues`);
    * a multipass voice whose own output goes to bin 31 closes the group
      although bin 31 still holds a contribution, and a voice writing bin 31
      after it opens no new group: it can land on another worker than the
      next multipass voice, which then reads a bin without its output
      (`voice_work_schedule_splits_multipass_group`).
-/

namespace Xemu.Apu

open Function Xemu.Word

/-! ## Section 1: The bins of a voice -/

/-- `MULTIPASS_BIN` -/
abbrev multipassBin : UInt32 := 31

/-- `MULTIPASS_BIN_MASK` -/
abbrev multipassBinMask : UInt32 := (1 : UInt32) <<< multipassBin

/-- `MCPX_HW_MAX_3D_VOICES` -/
abbrev mcpxHwMax3dVoices : Nat := 64

/-- `NV_PAVS_VOICE_CFG_VBIN` -/
abbrev nvPavsVoiceCfgVbin : Nat := 0x00
/-- `NV_PAVS_VOICE_CFG_FMT` -/
abbrev nvPavsVoiceCfgFmt : Nat := 0x04

/-- `NV_PAVS_VOICE_CFG_VBIN_V0BIN` -/
abbrev nvPavsVoiceCfgVbinV0bin : UInt32 := (0x1F : UInt32) <<< 0
/-- `NV_PAVS_VOICE_CFG_VBIN_V1BIN` -/
abbrev nvPavsVoiceCfgVbinV1bin : UInt32 := (0x1F : UInt32) <<< 5
/-- `NV_PAVS_VOICE_CFG_VBIN_V2BIN` -/
abbrev nvPavsVoiceCfgVbinV2bin : UInt32 := (0x1F : UInt32) <<< 10
/-- `NV_PAVS_VOICE_CFG_VBIN_V3BIN` -/
abbrev nvPavsVoiceCfgVbinV3bin : UInt32 := (0x1F : UInt32) <<< 16
/-- `NV_PAVS_VOICE_CFG_VBIN_V4BIN` -/
abbrev nvPavsVoiceCfgVbinV4bin : UInt32 := (0x1F : UInt32) <<< 21
/-- `NV_PAVS_VOICE_CFG_VBIN_V5BIN` -/
abbrev nvPavsVoiceCfgVbinV5bin : UInt32 := (0x1F : UInt32) <<< 26
/-- `NV_PAVS_VOICE_CFG_FMT_V6BIN` -/
abbrev nvPavsVoiceCfgFmtV6bin : UInt32 := (0x1F : UInt32) <<< 0
/-- `NV_PAVS_VOICE_CFG_FMT_V7BIN` -/
abbrev nvPavsVoiceCfgFmtV7bin : UInt32 := (0x1F : UInt32) <<< 5
/-- `NV_PAVS_VOICE_CFG_FMT_MULTIPASS_BIN` -/
abbrev nvPavsVoiceCfgFmtMultipassBin : UInt32 := (0x1F : UInt32) <<< 16
/-- `NV_PAVS_VOICE_CFG_FMT_MULTIPASS` -/
abbrev nvPavsVoiceCfgFmtMultipass : UInt32 := (1 : UInt32) <<< 21
/-- `NV_PAVS_VOICE_CFG_FMT_CLEAR_MIX` -/
abbrev nvPavsVoiceCfgFmtClearMix : UInt32 := (1 : UInt32) <<< 26

/-- The two voice registers `get_voice_bin_src_dst` reads. -/
structure VoiceBinRegs where
  /-- `NV_PAVS_VOICE_CFG_VBIN`: the destination bins 0 to 5 -/
  cfgVbin : UInt32
  /-- `NV_PAVS_VOICE_CFG_FMT`: bins 6 and 7, the multipass bit, bin and clear -/
  cfgFmt : UInt32
deriving DecidableEq, Repr

/-- The bin masks of a voice: the bins it reads, writes and clears. -/
structure VoiceBinMasks where
  src : UInt32
  dst : UInt32
  clr : UInt32
deriving DecidableEq, Repr

/-- `get_voice_bin_src_dst`: a multipass voice reads its multipass bin and
    clears it if `CLEAR_MIX` is set; every voice writes its eight bins,
    of which a 3D voice takes the first four from `hrtf_submix`. -/
def getVoiceBinSrcDst (hrtfSubmix : Fin 4 → UInt32) (v : Nat) (regs : VoiceBinRegs) :
    VoiceBinMasks :=
  let multipass := getMask regs.cfgFmt nvPavsVoiceCfgFmtMultipass != 0
  let mpBin := getMask regs.cfgFmt nvPavsVoiceCfgFmtMultipassBin
  let clearMix := getMask regs.cfgFmt nvPavsVoiceCfgFmtClearMix != 0
  let srcV : UInt32 := if multipass then 1 <<< mpBin else 0
  let clrV : UInt32 := if multipass && clearMix then 1 <<< mpBin else 0
  let bin : List UInt32 :=
    (if v < mcpxHwMax3dVoices then [hrtfSubmix 0, hrtfSubmix 1, hrtfSubmix 2, hrtfSubmix 3]
     else [getMask regs.cfgVbin nvPavsVoiceCfgVbinV0bin, getMask regs.cfgVbin nvPavsVoiceCfgVbinV1bin,
       getMask regs.cfgVbin nvPavsVoiceCfgVbinV2bin, getMask regs.cfgVbin nvPavsVoiceCfgVbinV3bin]) ++
    [getMask regs.cfgVbin nvPavsVoiceCfgVbinV4bin, getMask regs.cfgVbin nvPavsVoiceCfgVbinV5bin,
      getMask regs.cfgFmt nvPavsVoiceCfgFmtV6bin, getMask regs.cfgFmt nvPavsVoiceCfgFmtV7bin]
  let dstV : UInt32 := bin.foldl (fun d b => d ||| ((1 : UInt32) <<< b)) 0
  ⟨srcV, dstV, clrV⟩

/-- A shifted one is never zero: `<<<` on `UInt32` shifts by the amount
    modulo 32. -/
theorem one_shiftLeft_ne_zero (b : UInt32) : (1 : UInt32) <<< b ≠ 0 := by
  intro h
  have h' := congrArg UInt32.toNat h
  rw [UInt32.toNat_shiftLeft, UInt32.toNat_one, Nat.one_shiftLeft, UInt32.toNat_zero] at h'
  have hlt : b.toNat % 32 < 32 := Nat.mod_lt _ (by decide)
  have hpow : 2 ^ (b.toNat % 32) < 2 ^ 32 := Nat.pow_lt_pow_right (by decide) hlt
  rw [Nat.mod_eq_of_lt hpow] at h'
  exact absurd h' (Nat.two_pow_pos _).ne'

/-- Only a multipass voice clears a bin. -/
theorem getVoiceBinSrcDst_clr_of_src (hrtfSubmix : Fin 4 → UInt32) (v : Nat) (regs : VoiceBinRegs)
    (h : (getVoiceBinSrcDst hrtfSubmix v regs).src = 0) :
    (getVoiceBinSrcDst hrtfSubmix v regs).clr = 0 := by
  simp only [getVoiceBinSrcDst] at h ⊢
  split_ifs at h with hmp
  · exact absurd h (one_shiftLeft_ne_zero _)
  · simp [hmp]

/-! ## Section 2: `voice_work_schedule` -/

/-- A `VoiceWorkItem`: a queued voice and the list it came from. -/
structure VoiceWorkItem where
  voice : Nat
  list : Nat
deriving DecidableEq, Repr

/-- The scheduler's loop state: its three locals and what it writes into
    the dispatch. -/
structure VoiceWorkState where
  nextWorkerToSchedule : Nat
  group : Bool
  dirty : UInt32
  /-- `workers[w].queue` up to `workers[w].queue_len` -/
  workerQueues : Nat → List VoiceWorkItem
  workersPending : UInt64

/-- The state `voice_work_schedule` starts from: the workers emptied their
    queues and cleared their pending bits in the previous dispatch. -/
def voiceWorkStart : VoiceWorkState where
  nextWorkerToSchedule := 0
  group := false
  dirty := 0
  workerQueues := fun _ => []
  workersPending := 0

/-- One voice of the queue, with its bin masks; `none` where one of the
    three `assert`ed assumptions fails. -/
def voiceWorkScheduleStep (numWorkers : Nat) (st : VoiceWorkState) (item : VoiceWorkItem)
    (m : VoiceBinMasks) : Option VoiceWorkState :=
  -- the multipass bin is constant
  if ¬(m.src = 0 ∨ m.src = multipassBinMask) then none
  -- a multipass voice always clears it
  else if ¬(m.src = 0 ∨ m.clr = multipassBinMask) then none
  -- the voices writing it come together in the lists
  else if ¬(m.src ≠ 0 ∨ m.dst &&& multipassBinMask ≠ 0 ∨ st.dirty &&& multipassBinMask = 0) then none
  else
    let group := if (m.dst &&& multipassBinMask) &&& ~~~st.dirty ≠ 0 then true else st.group
    let w := st.nextWorkerToSchedule
    let dirty := (st.dirty &&& ~~~m.clr) ||| m.dst
    let group := if m.clr &&& multipassBinMask ≠ 0 then false else group
    some { nextWorkerToSchedule := if !group then (w + 1) % numWorkers else w
           group := group
           dirty := dirty
           workerQueues := update st.workerQueues w (st.workerQueues w ++ [item])
           workersPending := st.workersPending ||| ((1 : UInt64) <<< w.toUInt64) }

/-- The loop over the queue, with the masks of each voice. -/
def voiceWorkScheduleLoop (numWorkers : Nat) (masks : Nat → VoiceBinMasks) :
    VoiceWorkState → List VoiceWorkItem → Option VoiceWorkState
  | st, [] => some st
  | st, item :: rest =>
    (voiceWorkScheduleStep numWorkers st item (masks item.voice)).bind fun st' =>
      voiceWorkScheduleLoop numWorkers masks st' rest

/-- `voice_work_schedule` on the voice registers. -/
def voiceWorkSchedule (numWorkers : Nat) (hrtfSubmix : Fin 4 → UInt32) (regs : Nat → VoiceBinRegs)
    (queue : List VoiceWorkItem) : Option VoiceWorkState :=
  voiceWorkScheduleLoop numWorkers (fun v => getVoiceBinSrcDst hrtfSubmix v (regs v)) voiceWorkStart queue

/-- The worker each voice of the queue goes to: `next_worker_to_schedule`
    when the loop reaches it. -/
def voiceWorkAssign (numWorkers : Nat) (masks : Nat → VoiceBinMasks) :
    VoiceWorkState → List VoiceWorkItem → List Nat
  | _, [] => []
  | st, item :: rest =>
    match voiceWorkScheduleStep numWorkers st item (masks item.voice) with
    | none => []
    | some st' => st.nextWorkerToSchedule :: voiceWorkAssign numWorkers masks st' rest

/-! ## Section 3: Every voice on one worker, in order -/

section queues

variable {numWorkers : Nat} {masks : Nat → VoiceBinMasks}

/-- A step appends the voice to the queue of `next_worker_to_schedule`. -/
theorem voiceWorkScheduleStep_queues {st st' : VoiceWorkState} {item : VoiceWorkItem}
    {m : VoiceBinMasks} (hs : voiceWorkScheduleStep numWorkers st item m = some st') :
    st'.workerQueues = update st.workerQueues st.nextWorkerToSchedule
      (st.workerQueues st.nextWorkerToSchedule ++ [item]) := by
  unfold voiceWorkScheduleStep at hs
  split_ifs at hs <;> (obtain rfl := Option.some.inj hs; rfl)

/-- A step keeps `next_worker_to_schedule` below `num_workers`. -/
theorem voiceWorkScheduleStep_next_lt {st st' : VoiceWorkState} {item : VoiceWorkItem}
    {m : VoiceBinMasks} (hn : st.nextWorkerToSchedule < numWorkers)
    (hs : voiceWorkScheduleStep numWorkers st item m = some st') :
    st'.nextWorkerToSchedule < numWorkers := by
  unfold voiceWorkScheduleStep at hs
  split_ifs at hs <;> (obtain rfl := Option.some.inj hs; dsimp only; split) <;>
    first | exact Nat.mod_lt _ (by omega) | exact hn

/-- Each worker's queue grows by the voices assigned to it, in queue order,
    and every voice of the queue is assigned once. -/
theorem voiceWorkScheduleLoop_queues :
    ∀ (queue : List VoiceWorkItem) (st final : VoiceWorkState),
      voiceWorkScheduleLoop numWorkers masks st queue = some final →
      (voiceWorkAssign numWorkers masks st queue).length = queue.length ∧
      ∀ w, final.workerQueues w = st.workerQueues w ++
        ((queue.zip (voiceWorkAssign numWorkers masks st queue)).filter (·.2 == w)).map Prod.fst
  | [], st, final, hrun => by
    cases hrun
    simp [voiceWorkAssign]
  | item :: rest, st, final, hrun => by
    cases hs : voiceWorkScheduleStep numWorkers st item (masks item.voice) with
    | none => simp [voiceWorkScheduleLoop, hs] at hrun
    | some st' =>
      simp only [voiceWorkScheduleLoop, hs, Option.bind_some] at hrun
      obtain ⟨hlen, hq⟩ := voiceWorkScheduleLoop_queues rest st' final hrun
      refine ⟨by simp [voiceWorkAssign, hs, hlen], fun w => ?_⟩
      simp only [voiceWorkAssign, hs, List.zip_cons_cons, List.filter_cons]
      -- the voice went to `next_worker_to_schedule`: its queue grew by it
      rw [hq w, voiceWorkScheduleStep_queues hs]
      by_cases hw : st.nextWorkerToSchedule = w
      · subst hw
        simp
      · simp [update_of_ne (Ne.symm hw), hw]

/-- Every voice goes to a worker below `num_workers`. -/
theorem voiceWorkAssign_lt :
    ∀ (queue : List VoiceWorkItem) (st : VoiceWorkState), st.nextWorkerToSchedule < numWorkers →
      ∀ a ∈ voiceWorkAssign numWorkers masks st queue, a < numWorkers
  | [], _, _ => by simp [voiceWorkAssign]
  | item :: rest, st, hn => by
    cases hs : voiceWorkScheduleStep numWorkers st item (masks item.voice) with
    | none => simp [voiceWorkAssign, hs]
    | some st' =>
      intro a ha
      simp only [voiceWorkAssign, hs, List.mem_cons] at ha
      rcases ha with rfl | ha
      · exact hn
      · exact voiceWorkAssign_lt rest st' (voiceWorkScheduleStep_next_lt hn hs) a ha

end queues

/-- `voice_work_schedule` hands every queued voice to one worker below
    `num_workers`, and each worker gets its voices in queue order. -/
theorem voiceWorkSchedule_queues (numWorkers : Nat) (hn : 0 < numWorkers)
    (hrtfSubmix : Fin 4 → UInt32) (regs : Nat → VoiceBinRegs) (queue : List VoiceWorkItem)
    (final : VoiceWorkState) (hrun : voiceWorkSchedule numWorkers hrtfSubmix regs queue = some final) :
    let assign := voiceWorkAssign numWorkers (fun v => getVoiceBinSrcDst hrtfSubmix v (regs v))
      voiceWorkStart queue
    assign.length = queue.length ∧ (∀ a ∈ assign, a < numWorkers) ∧
      ∀ w, final.workerQueues w = ((queue.zip assign).filter (·.2 == w)).map Prod.fst := by
  intro assign
  obtain ⟨hlen, hq⟩ := voiceWorkScheduleLoop_queues queue voiceWorkStart final hrun
  refine ⟨hlen, voiceWorkAssign_lt queue voiceWorkStart hn, fun w => ?_⟩
  rw [hq w]
  exact List.nil_append _

/-! ## Section 4: The multipass groups -/

/-- In the order of the queue, voice `j` wrote bin 31 after the last clear
    of bin 31 before voice `i` reads it: every voice between them leaves the
    bin uncleared.  A clearing voice clears the bin before it mixes its own
    output (`get_multipass_samples`, then the mixing of `voice_process`), so
    its own output counts. -/
def WroteMultipassSinceClear (ms : List VoiceBinMasks) (j i : Nat) : Prop :=
  j < i ∧ (∃ mj, ms[j]? = some mj ∧ mj.dst &&& multipassBinMask ≠ 0) ∧
    ∀ k, j < k → k < i → ∀ mk, ms[k]? = some mk → mk.clr &&& multipassBinMask = 0

/-- A submix voice that clears bin 31 and also writes it, a voice writing
    bin 31, and a second submix voice, on two workers: the first submix
    voice closes the group and moves on to worker 1, where the writer lands
    without opening a new group (bin 31 is still dirty), and the second
    submix voice goes back to worker 0.  It reads bin 31 of worker 0, which
    lacks the writer's output that the order of the queue puts there. -/
theorem voice_work_schedule_splits_multipass_group :
    let regs : Nat → VoiceBinRegs := fun v =>
      if v = 64 then ⟨0, 0x043F001F⟩ else if v = 65 then ⟨0, 0x1F⟩ else ⟨0, 0x043F0000⟩
    let masks := fun v => getVoiceBinSrcDst (fun _ => 0) v (regs v)
    let queue : List VoiceWorkItem := [⟨64, 1⟩, ⟨65, 1⟩, ⟨66, 1⟩]
    (voiceWorkSchedule 2 (fun _ => 0) regs queue).isSome ∧
      voiceWorkAssign 2 masks voiceWorkStart queue = [0, 1, 0] ∧
      (masks 66).src = multipassBinMask ∧
      WroteMultipassSinceClear (queue.map fun it => masks it.voice) 1 2 := by
  intro regs masks queue
  refine ⟨by decide, by decide, by decide, by decide, ⟨_, rfl, by decide⟩, ?_⟩
  -- no voice lies between the writer and the second submix voice
  intro k hk1 hk2
  omega

end Xemu.Apu
