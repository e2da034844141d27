import Mathlib
import Xemu.Apu.Envelope
import Xemu.Apu.VoiceWork

/-! # Voice sample fetch

    Model of `voice_get_samples` in `hw/xbox/mcpx/apu/vp/vp.c`, which
    reads the next samples of a voice for its resampler, and of
    `voice_resample_callback`, which asks it for the samples of a frame.

    A buffer voice plays the samples at offsets `CBO`, `CBO + 1`, ... of
    its buffer; the read loop runs while `cbo <= ebo`, so the end offset
    `EBO` is the last sample.  After the loop a looping voice goes back to
    `LBO` and any other buffer voice is turned off.  A stream voice plays
    the segments of its two segment lists (SSLs) in turn, each from offset
    0 to its length minus one, and posts the list's notifier when it moves
    to the other list.

    The model returns, for each sample `voice_get_samples` writes, the
    offset it reads it at.  How the bytes at an offset decode (the PCM
    containers and sample sizes, the ADPCM blocks, the scatter-gather table
    of buffer voices and `BA`) is not modelled, nor is the debug copy of the
    registers.  The voice records, the registers and the guest memory of
    the segment table and the notifiers are kept apart, as in
    `Xemu.Apu.Envelope`.

    Results:
    * one call on a buffer voice reads `CBO ..` up to the request or up to
      `EBO` inclusive, and leaves `CBO` at `LBO` (looping), at `EBO` with
      the voice off, or after the last offset read (`voiceGetSamples_buffer`,
      and `voiceGetSamplesRun_buffer` for a run of calls);
    * the end test after the loop is `cbo >= ebo`, not `cbo > ebo`: a
      request that stops right before `EBO` wraps to `LBO`, or turns the
      voice off, without `EBO` being read (`bufferCall_stop_before_ebo`),
      so what a voice plays depends on where the requests split; a stream
      segment loses its last sample the same way
      (`voiceGetSamples_stream_stop_before_end`);
    * requests none of which stops right before `EBO` read the loop order
      `CBO .. EBO, LBO .. EBO, ...` (`voiceGetSamplesRun_loop_order`);
    * `voice_resample_callback` fills a frame of a looping voice within
      `NUM_SAMPLES_PER_FRAME` requests when `LBO` and `CBO` are at most
      `EBO` (`resampleLoop_fills`), and never returns when both lie past
      it (`resampleLoop_lbo_gt_ebo`).
-/

namespace Xemu.Apu

open Function Xemu.Word

/-! ## Section 1: Registers and state -/

/-- `NV_PAPU_FENADDR`: the notifiers in guest memory -/
abbrev nvPapuFenaddr : Nat := 0x115C
/-- `NV_PAPU_VPSSLADDR`: the stream segment table in guest memory -/
abbrev nvPapuVpssladdr : Nat := 0x2034
/-- `NV_PAVS_VOICE_CFG_FMT_SAMPLES_PER_BLOCK` -/
abbrev nvPavsVoiceCfgFmtSamplesPerBlock : UInt32 := (0x1F : UInt32) <<< 16
/-- `NV_PAVS_VOICE_CFG_FMT_PERSIST` -/
abbrev nvPavsVoiceCfgFmtPersist : UInt32 := (1 : UInt32) <<< 23
/-- `NV_PAVS_VOICE_CFG_FMT_DATA_TYPE`: set for a stream voice -/
abbrev nvPavsVoiceCfgFmtDataType : UInt32 := (1 : UInt32) <<< 24
/-- `NV_PAVS_VOICE_CFG_FMT_LOOP` -/
abbrev nvPavsVoiceCfgFmtLoop : UInt32 := (1 : UInt32) <<< 25
/-- `NV_PAVS_VOICE_CFG_FMT_STEREO` -/
abbrev nvPavsVoiceCfgFmtStereo : UInt32 := (1 : UInt32) <<< 27
/-- `NV_PAVS_VOICE_CFG_FMT_CONTAINER_SIZE` -/
abbrev nvPavsVoiceCfgFmtContainerSize : UInt32 := (0x3 : UInt32) <<< 30
/-- `NV_PAVS_VOICE_CFG_FMT_CONTAINER_SIZE_ADPCM` -/
abbrev nvPavsVoiceCfgFmtContainerSizeAdpcm : UInt32 := 2
/-- `NV_PAVS_VOICE_CUR_PSH_SAMPLE` -/
abbrev nvPavsVoiceCurPshSample : Nat := 0x24
/-- `NV_PAVS_VOICE_CUR_PSH_SAMPLE_LBO` -/
abbrev nvPavsVoiceCurPshSampleLbo : UInt32 := 0x00FFFFFF
/-- `NV_PAVS_VOICE_PAR_STATE_NEW_VOICE` -/
abbrev nvPavsVoiceParStateNewVoice : UInt32 := (1 : UInt32) <<< 20
/-- `NV_PAVS_VOICE_PAR_NEXT_EBO` -/
abbrev nvPavsVoiceParNextEbo : UInt32 := 0x00FFFFFF
/-- `ADPCM_SAMPLES_PER_BLOCK` -/
abbrev adpcmSamplesPerBlock : Nat := 64
/-- `NUM_SAMPLES_PER_FRAME` -/
abbrev numSamplesPerFrame : Nat := 32
/-- `MCPX_HW_NOTIFIER_BASE_OFFSET` -/
abbrev mcpxHwNotifierBaseOffset : Nat := 2
/-- `MCPX_HW_NOTIFIER_COUNT` -/
abbrev mcpxHwNotifierCount : Nat := 4
/-- `MCPX_HW_NOTIFIER_SSLA_DONE`; `SSLB_DONE` follows it -/
abbrev mcpxHwNotifierSslaDone : Nat := 0
/-- `NV1BA0_NOTIFICATION_STATUS_DONE_SUCCESS` -/
abbrev nv1ba0NotificationStatusDoneSuccess : UInt8 := 0x01

/-- The asserts of `voice_get_samples` that can fail. -/
inductive SamplesAbort
  /-- `assert(v < MCPX_HW_MAX_VOICES)` -/
  | voiceHandle
  /-- `assert(!multipass)`: multipass voices are mixed before this -/
  | multipass
  /-- `assert(!loop)` on a stream voice -/
  | streamLoop
  /-- `assert(segment_offset != 0)` and `assert(segment_length != 0)` -/
  | segmentEntry
  /-- the asserts that the segment's container size, samples per block and
      channels are the voice's -/
  | segmentFormat
  /-- `assert(seg_len > 0)` -/
  | segmentLength
  /-- `assert(linear_addr + block_size <= max_seg_byte)`: an ADPCM block of
      a stream past the whole blocks of its segment -/
  | adpcmBlock
  deriving DecidableEq, Repr

/-- The instance behind the `Fin 2` literals of `ssl_index`, named here so
    that no definition carries a proof of its own. -/
theorem neZero_two : NeZero 2 := ⟨by decide⟩

attribute [local instance] neZero_two

/-- `MCPXAPUVPSSLData`: the two segment lists of a stream voice and the
    place in them.  The code stores only 0 and `(ssl_index + 1) % 2` in
    `ssl_index`, so it is a `Fin 2` here, and `voice_off`'s
    `assert(ssl_index <= 1)` holds by its type. -/
structure VoiceSsl where
  /-- `base[2]`: the first segment table entry of each list -/
  base : Fin 2 → UInt32
  /-- `count[2]`: the number of segments of each list -/
  count : Fin 2 → UInt8
  /-- `ssl_index`: the list playing -/
  sslIndex : Fin 2
  /-- `ssl_seg`: the segment playing in it -/
  sslSeg : Nat

/-- What `voice_get_samples` reads and writes: the registers and voice
    records, the stream voices' lists, and the guest memory beside the voice
    records (the segment table it reads, the notifiers it writes). -/
structure SampleState where
  /-- the registers and the voice records -/
  apu : ApuVoices
  /-- `d->vp.ssl`, by voice -/
  ssl : Nat → VoiceSsl
  /-- guest memory, by byte -/
  mem : Nat → UInt8

/-- `ldl_le_phys` -/
def ldlLePhys (mem : Nat → UInt8) (addr : Nat) : UInt32 :=
  (mem addr).toUInt32 ||| (mem (addr + 1)).toUInt32 <<< 8 ||| (mem (addr + 2)).toUInt32 <<< 16 |||
    (mem (addr + 3)).toUInt32 <<< 24

/-- The two bytes `set_notify_status` writes to guest memory: `status` at
    the last byte of notifier `notifier` of voice `v`, and 1 before it. -/
def notifyBytes (mem : Nat → UInt8) (fenaddr : UInt32) (v notifier : Nat) (status : UInt8) :
    Nat → UInt8 :=
  let notifyOffset :=
    fenaddr.toNat + 16 * (mcpxHwNotifierBaseOffset + v * mcpxHwNotifierCount + notifier) + 15
  update (update mem notifyOffset status) (notifyOffset - 1) 1

/-- `set_notify_status`: the notifier's bytes and the interrupt status. -/
def setNotifyStatus (st : SampleState) (v notifier : Nat) (status : UInt8) : SampleState :=
  { st with
    mem := notifyBytes st.mem (st.apu.regs nvPapuFenaddr) v notifier status
    apu := { st.apu with
      regs := update st.apu.regs nvPapuIsts
        (st.apu.regs nvPapuIsts ||| nvPapuIstsFevintsts ||| nvPapuIstsFenintsts) } }

/-- `voice_off`: `voiceOff` on the voice records and registers (it sets the
    interrupt status of the `set_notify_status` call), and the notifier's
    bytes, of list A or, for a stream voice, of the list playing. -/
def SampleState.voiceOff (st : SampleState) (v : Nat) : SampleState :=
  let stream := voiceGetMask st.apu v nvPavsVoiceCfgFmt nvPavsVoiceCfgFmtDataType != 0
  let notifier := mcpxHwNotifierSslaDone + if stream then (st.ssl v).sslIndex.val else 0
  { st with
    apu := Xemu.Apu.voiceOff st.apu v
    mem := notifyBytes st.mem (st.apu.regs nvPapuFenaddr) v notifier
      nv1ba0NotificationStatusDoneSuccess }

@[simp] theorem SampleState.voiceOff_ssl (st : SampleState) (v : Nat) :
    (st.voiceOff v).ssl = st.ssl := rfl

@[simp] theorem SampleState.voiceOff_apu (st : SampleState) (v : Nat) :
    (st.voiceOff v).apu = Xemu.Apu.voiceOff st.apu v := rfl

@[simp] theorem setNotifyStatus_ssl (st : SampleState) (v n : Nat) (s : UInt8) :
    (setNotifyStatus st v n s).ssl = st.ssl := rfl

@[simp] theorem setNotifyStatus_voices (st : SampleState) (v n : Nat) (s : UInt8) :
    (setNotifyStatus st v n s).apu.voices = st.apu.voices := rfl

/-! ## Section 2: `voice_get_samples` -/

/-- The fields of the voice record that `voice_get_samples` reads into its
    locals and that decide which offsets it reads. -/
structure SampleRegs where
  stereo : Bool
  containerSizeIndex : UInt32
  stream : Bool
  paused : Bool
  loop : Bool
  ebo : Nat
  cbo : Nat
  lbo : Nat
  samplesPerBlock : Nat
  persist : Bool
  multipass : Bool
  deriving DecidableEq, Repr

/-- The locals of `voice_get_samples` as it reads them from voice `v`. -/
def sampleRegs (st : ApuVoices) (v : Nat) : SampleRegs where
  stereo := voiceGetMask st v nvPavsVoiceCfgFmt nvPavsVoiceCfgFmtStereo != 0
  containerSizeIndex := voiceGetMask st v nvPavsVoiceCfgFmt nvPavsVoiceCfgFmtContainerSize
  stream := voiceGetMask st v nvPavsVoiceCfgFmt nvPavsVoiceCfgFmtDataType != 0
  paused := voiceGetMask st v nvPavsVoiceParState nvPavsVoiceParStatePaused != 0
  loop := voiceGetMask st v nvPavsVoiceCfgFmt nvPavsVoiceCfgFmtLoop != 0
  ebo := (voiceGetMask st v nvPavsVoiceParNext nvPavsVoiceParNextEbo).toNat
  cbo := (voiceGetMask st v nvPavsVoiceParOffset nvPavsVoiceParOffsetCbo).toNat
  lbo := (voiceGetMask st v nvPavsVoiceCurPshSample nvPavsVoiceCurPshSampleLbo).toNat
  samplesPerBlock := 1 + (voiceGetMask st v nvPavsVoiceCfgFmt nvPavsVoiceCfgFmtSamplesPerBlock).toNat
  persist := voiceGetMask st v nvPavsVoiceCfgFmt nvPavsVoiceCfgFmtPersist != 0
  multipass := voiceGetMask st v nvPavsVoiceCfgFmt nvPavsVoiceCfgFmtMultipass != 0

/-- The stream part of `voice_get_samples` before its read loop: a stream
    that is neither persistent nor releasing ends; a list of no segments
    ends (the voice goes off, or the list's notifier is posted); otherwise
    the length of the current segment, from its table entry, with the
    entry's asserts.  `inl` is a `return -1`. -/
def streamSegment (st : SampleState) (v : Nat) (r : SampleRegs) :
    Except SamplesAbort (SampleState ⊕ Nat) :=
  let eacur := voiceGetMask st.apu v nvPavsVoiceParState nvPavsVoiceParStateEacur
  if r.persist = false ∧ eacur < EnvPhase.release.val then .ok (.inl (st.voiceOff v))
  else if r.loop then .error .streamLoop
  else
    let ssl := st.ssl v
    let page := ssl.base ssl.sslIndex + UInt32.ofNat ssl.sslSeg
    if ssl.count ssl.sslIndex = 0 then
      -- the stream has ended
      let st := { st with
        apu := voiceSetMask st.apu v nvPavsVoiceParOffset nvPavsVoiceParOffsetCbo 0
        ssl := update st.ssl v { ssl with sslSeg := 0 } }
      if r.persist then
        .ok (.inl (setNotifyStatus st v (mcpxHwNotifierSslaDone + ssl.sslIndex.val)
          nv1ba0NotificationStatusDoneSuccess))
      else
        .ok (.inl (SampleState.voiceOff { st with ssl := update st.ssl v { ssl with sslSeg := 0, sslIndex := 0 } } v))
    else
      let addr := (st.apu.regs nvPapuVpssladdr + page * 8).toNat
      let segmentOffset := ldlLePhys st.mem addr
      let segmentLength := ldlLePhys st.mem (addr + 4)
      if segmentOffset = 0 ∨ segmentLength = 0 then .error .segmentEntry
      else
        let segLen := (segmentLength &&& 0xffff).toNat
        let segCs := (segmentLength >>> 16) &&& 3
        let segSpb := ((segmentLength >>> 18) &&& 0x1f).toNat
        let segS := (segmentLength >>> 23) &&& 1
        if segCs ≠ r.containerSizeIndex ∨ segSpb + 1 ≠ r.samplesPerBlock ∨
            segS ≠ (if r.stereo then 1 else 0) then .error .segmentFormat
        else if segLen = 0 then .error .segmentLength
        else .ok (.inr segLen)

/-- The assert on ADPCM block `blockIndex` of a stream segment of `segLen`
    samples: the block ends within the segment's whole blocks. -/
def adpcmBlockOk (r : SampleRegs) (segLen blockIndex : Nat) : Bool :=
  let blockSize := 36 * r.samplesPerBlock
  blockIndex * blockSize + blockSize ≤ (segLen >>> 6) * blockSize

/-- The read loop of `voice_get_samples`, `n` more samples allowed, from
    `cbo`: the offsets it reads and `cbo` after it.  `block` is
    `adpcm_block_index`, the block last decoded; a block is checked by
    `blockOk` when it is decoded. -/
def sampleLoop (blockOk : Nat → Bool) (ebo : Nat) :
    Nat → Option Nat → Nat → Except SamplesAbort (List Nat × Nat)
  | 0, _, cbo => .ok ([], cbo)
  | n + 1, block, cbo =>
    if ebo < cbo then .ok ([], cbo)
    else
      let blockIndex := cbo / adpcmSamplesPerBlock
      if block ≠ some blockIndex ∧ blockOk blockIndex = false then .error .adpcmBlock
      else
        match sampleLoop blockOk ebo n (some blockIndex) (cbo + 1) with
        | .error e => .error e
        | .ok (offsets, cbo') => .ok (cbo :: offsets, cbo')

/-- The end of `voice_get_samples`: at or past `ebo` a stream moves to its
    next segment, or after the last to the other list, posting the
    notifier of the list it leaves; a looping buffer voice goes back to
    `lbo`; any other buffer voice is turned off at `ebo`.  Then `cbo` is
    written back. -/
def sampleEnd (st : SampleState) (v : Nat) (r : SampleRegs) (ebo cbo : Nat) : SampleState :=
  let (st, cbo) :=
    if ebo ≤ cbo then
      if r.stream then
        let ssl := st.ssl v
        if ssl.sslSeg + 1 < (ssl.count ssl.sslIndex).toNat then
          ({ st with ssl := update st.ssl v { ssl with sslSeg := ssl.sslSeg + 1 } }, 0)
        else
          (setNotifyStatus
            { st with ssl := update st.ssl v { ssl with sslIndex := ssl.sslIndex + 1, sslSeg := 0 } } v
            (mcpxHwNotifierSslaDone + ssl.sslIndex.val) nv1ba0NotificationStatusDoneSuccess, 0)
      else if r.loop then (st, r.lbo)
      else (st.voiceOff v, ebo)
    else (st, cbo)
  { st with apu := voiceSetMask st.apu v nvPavsVoiceParOffset nvPavsVoiceParOffsetCbo (UInt32.ofNat cbo) }

/-- The read loop and the end of `voice_get_samples`, for a voice that
    plays up to `ebo`. -/
def readSamples (st : SampleState) (v : Nat) (r : SampleRegs) (ebo : Nat) (blockOk : Nat → Bool)
    (n : Nat) : Except SamplesAbort (SampleState × Option (List Nat)) :=
  match sampleLoop blockOk ebo n none r.cbo with
  | .error e => .error e
  | .ok (offsets, cbo) => .ok (sampleEnd st v r ebo cbo, some offsets)

/-- `voice_get_samples(d, v, samples, num_samples_requested)`: the state
    after it and the offsets of the samples it writes, whose number is its
    return value, or `none` for its `-1`. -/
def voiceGetSamples (st : SampleState) (v numSamplesRequested : Nat) :
    Except SamplesAbort (SampleState × Option (List Nat)) :=
  if mcpxHwMaxVoices ≤ v then .error .voiceHandle
  else
    let r := sampleRegs st.apu v
    if r.multipass then .error .multipass
    else
      -- cleared before the pause test
      let st := { st with apu := voiceSetMask st.apu v nvPavsVoiceParState nvPavsVoiceParStateNewVoice 0 }
      if r.paused then .ok (st, none)
      else if r.stream then
        match streamSegment st v r with
        | .error e => .error e
        | .ok (.inl st) => .ok (st, none)
        | .ok (.inr segLen) =>
          let adpcm := r.containerSizeIndex == nvPavsVoiceCfgFmtContainerSizeAdpcm
          readSamples st v r (segLen - 1) (fun b => !adpcm || adpcmBlockOk r segLen b) numSamplesRequested
      else readSamples st v r r.ebo (fun _ => true) numSamplesRequested

/-- `voice_get_samples` called with the request sizes `ns` in turn: the
    state after the calls and the offsets they read, in order. -/
def voiceGetSamplesRun (st : SampleState) (v : Nat) :
    List Nat → Except SamplesAbort (SampleState × List Nat)
  | [] => .ok (st, [])
  | n :: ns =>
    match voiceGetSamples st v n with
    | .error e => .error e
    | .ok (st, offsets) =>
      match voiceGetSamplesRun st v ns with
      | .error e => .error e
      | .ok (st, rest) => .ok (st, offsets.getD [] ++ rest)

/-- The loop of `voice_resample_callback` from `sampleCount` samples of the
    frame: it asks for the rest while the voice is active and a request
    does not return `-1`.  The loop need not end (section 5), so the model
    makes at most `fuel` requests and returns `none` when they do not
    suffice. -/
def resampleLoop (v : Nat) : Nat → SampleState → Nat → Except SamplesAbort (Option (SampleState × List Nat))
  | 0, _, _ => .ok none
  | fuel + 1, st, sampleCount =>
    if numSamplesPerFrame ≤ sampleCount then .ok (some (st, []))
    else if voiceGetMask st.apu v nvPavsVoiceParState nvPavsVoiceParStateActiveVoice = 0 then
      .ok (some (st, []))
    else
      match voiceGetSamples st v (numSamplesPerFrame - sampleCount) with
      | .error e => .error e
      | .ok (st, none) => .ok (some (st, []))
      | .ok (st, some offsets) =>
        match resampleLoop v fuel st (sampleCount + offsets.length) with
        | .error e => .error e
        | .ok none => .ok none
        | .ok (some (st, rest)) => .ok (some (st, offsets ++ rest))

/-- `voice_resample_callback`: the frame is the samples read, then silence
    (`none`) up to `NUM_SAMPLES_PER_FRAME`. -/
def voiceResampleCallback (fuel : Nat) (st : SampleState) (v : Nat) :
    Except SamplesAbort (Option (SampleState × List (Option Nat))) :=
  if mcpxHwMaxVoices ≤ v then .error .voiceHandle
  else
    match resampleLoop v fuel st 0 with
    | .error e => .error e
    | .ok none => .ok none
    | .ok (some (st, offsets)) =>
      .ok (some (st, offsets.map some ++ List.replicate (numSamplesPerFrame - offsets.length) none))

/-! ## Section 3: The locals after a write -/

theorem ctz32_cbo : ctz32 nvPavsVoiceParOffsetCbo = 0 := by decide

/-- A 24-bit offset written into `CBO` reads back as itself. -/
theorem getMask_setMask_cbo (w x : UInt32) (hx : x.toNat < 2 ^ 24) :
    getMask (setMask w nvPavsVoiceParOffsetCbo x) nvPavsVoiceParOffsetCbo = x := by
  rw [getMask_setMask_self, getMask, ctz32_cbo]
  apply UInt32.toNat_inj.mp
  simp only [UInt32.shiftLeft_zero, UInt32.shiftRight_zero, UInt32.toNat_and]
  rw [show (nvPavsVoiceParOffsetCbo).toNat = 2 ^ 24 - 1 from rfl, Nat.and_two_pow_sub_one_eq_mod]
  exact Nat.mod_eq_of_lt hx

/-- A write to `PAR_STATE` outside the pause bit leaves every local of
    `voice_get_samples` as it was. -/
theorem sampleRegs_voiceSetMask_parState (st : ApuVoices) (v w : Nat) {m : UInt32}
    (hm : m &&& nvPavsVoiceParStatePaused = 0) (x : UInt32) :
    sampleRegs (voiceSetMask st v nvPavsVoiceParState m x) w = sampleRegs st w := by
  by_cases hw : w = v
  · subst hw
    simp only [sampleRegs, voiceGetMask_voiceSetMask]
    simp [getMask_setMask_of_disjoint hm, voiceGetMask]
  · simp [sampleRegs, voiceGetMask_voiceSetMask, hw]

theorem sampleRegs_voiceOff (st : ApuVoices) (v w : Nat) :
    sampleRegs (voiceOff st v) w = sampleRegs st w :=
  sampleRegs_voiceSetMask_parState st v w (by decide) 0

/-- Writing `CBO` changes that local only. -/
theorem sampleRegs_setCbo (st : ApuVoices) (v w : Nat) (x : UInt32) (hx : x.toNat < 2 ^ 24) :
    sampleRegs (voiceSetMask st v nvPavsVoiceParOffset nvPavsVoiceParOffsetCbo x) w =
      if w = v then { sampleRegs st w with cbo := x.toNat } else sampleRegs st w := by
  by_cases hw : w = v
  · subst hw
    simp only [sampleRegs, voiceGetMask_voiceSetMask]
    simp [getMask_setMask_cbo _ _ hx, voiceGetMask]
  · simp [sampleRegs, voiceGetMask_voiceSetMask, hw]

theorem getMask_field24_lt (x : UInt32) {mask : UInt32} (hm : mask = 0x00FFFFFF) :
    (getMask x mask).toNat < 2 ^ 24 := by
  subst hm
  have hle := getMask_toNat_le x 0x00FFFFFF
  have htop : (getMask 0x00FFFFFF 0x00FFFFFF).toNat = 2 ^ 24 - 1 := by decide
  omega

theorem sampleRegs_ebo_lt (st : ApuVoices) (v : Nat) : (sampleRegs st v).ebo < 2 ^ 24 :=
  getMask_field24_lt _ rfl

theorem sampleRegs_lbo_lt (st : ApuVoices) (v : Nat) : (sampleRegs st v).lbo < 2 ^ 24 :=
  getMask_field24_lt _ rfl

/-! ## Section 4: Buffer voices

    On a buffer voice a call reads `min n (EBO + 1 - CBO)` offsets from
    `CBO` (`bufferCall`), and a run of calls is the run of these
    (`requestRun`, `voiceGetSamplesRun_buffer`). -/

/-- Where a buffer voice's `CBO` goes when its read loop stopped at `cbo`:
    at or past `ebo`, to `lbo` if it loops and to `ebo` if not. -/
def bufferCursor (loop : Bool) (lbo ebo cbo : Nat) : Nat :=
  if ebo ≤ cbo then (if loop then lbo else ebo) else cbo

/-- One `voice_get_samples` call on a buffer voice, in offsets: those it
    reads from `cbo` for a request of `n`, and the `CBO` it leaves. -/
def bufferCall (loop : Bool) (lbo ebo cbo n : Nat) : List Nat × Nat :=
  let k := min n (ebo + 1 - cbo)
  (List.range' cbo k, bufferCursor loop lbo ebo (cbo + k))

/-- Requests `ns` in turn, each served by `call` from where the one before
    left off: the offsets read, in order, and where the last left off. -/
def requestRun (call : Nat → Nat → List Nat × Nat) : Nat → List Nat → List Nat × Nat
  | c, [] => ([], c)
  | c, n :: ns =>
    let rest := requestRun call (call c n).2 ns
    ((call c n).1 ++ rest.1, rest.2)

/-- A voice that `voice_get_samples` reads as a buffer: a valid handle, and
    neither multipass nor paused nor a stream. -/
structure BufferVoice (st : SampleState) (v : Nat) : Prop where
  handle : v < mcpxHwMaxVoices
  notMultipass : (sampleRegs st.apu v).multipass = false
  notPaused : (sampleRegs st.apu v).paused = false
  notStream : (sampleRegs st.apu v).stream = false

theorem bufferCursor_lt {loop : Bool} {lbo ebo cbo : Nat} (hl : lbo < 2 ^ 24) (he : ebo < 2 ^ 24) :
    bufferCursor loop lbo ebo cbo < 2 ^ 24 := by
  unfold bufferCursor
  split_ifs <;> omega

/-- With no assert to fail, the loop reads `min n (ebo + 1 - cbo)` offsets
    from `cbo`. -/
theorem sampleLoop_true (ebo : Nat) : ∀ (n : Nat) (block : Option Nat) (cbo : Nat),
    sampleLoop (fun _ => true) ebo n block cbo =
      .ok (List.range' cbo (min n (ebo + 1 - cbo)), cbo + min n (ebo + 1 - cbo)) := by
  intro n
  induction n with
  | zero =>
    intro block cbo
    simp [sampleLoop]
  | succ n ih =>
    intro block cbo
    by_cases hlt : ebo < cbo
    · have hk : ebo + 1 - cbo = 0 := by omega
      simp [sampleLoop, hlt, hk]
    · -- `cbo` is read, and the rest of the request from `cbo + 1`
      have hk : min (n + 1) (ebo + 1 - cbo) = min n (ebo + 1 - (cbo + 1)) + 1 := by omega
      simp only [sampleLoop, if_neg hlt, ih, hk, List.range'_succ]
      simp [Nat.add_assoc, Nat.add_comm 1]

/-- The spec of one call on a buffer voice: `NEW_VOICE` cleared, the loop,
    and the end of the buffer. -/
theorem voiceGetSamples_buffer {st : SampleState} {v : Nat} (hb : BufferVoice st v) (n : Nat) :
    voiceGetSamples st v n =
      .ok (sampleEnd
          { st with apu := voiceSetMask st.apu v nvPavsVoiceParState nvPavsVoiceParStateNewVoice 0 } v
          (sampleRegs st.apu v) (sampleRegs st.apu v).ebo
          ((sampleRegs st.apu v).cbo + min n ((sampleRegs st.apu v).ebo + 1 - (sampleRegs st.apu v).cbo)),
        some (List.range' (sampleRegs st.apu v).cbo
          (min n ((sampleRegs st.apu v).ebo + 1 - (sampleRegs st.apu v).cbo)))) := by
  have hv : ¬ mcpxHwMaxVoices ≤ v := Nat.not_le.mpr hb.handle
  simp only [voiceGetSamples, if_neg hv, hb.notMultipass, hb.notPaused, hb.notStream, readSamples,
    sampleLoop_true]
  rfl

/-- The end of a call on a buffer voice: `voice_off` if it reached `ebo`
    and does not loop, then one write of `CBO`. -/
theorem sampleEnd_buffer (st : SampleState) (v : Nat) (r : SampleRegs) (ebo cbo : Nat)
    (hs : r.stream = false) :
    sampleEnd st v r ebo cbo =
      let st' := if ebo ≤ cbo ∧ r.loop = false then st.voiceOff v else st
      { st' with
        apu := voiceSetMask st'.apu v nvPavsVoiceParOffset nvPavsVoiceParOffsetCbo
          (UInt32.ofNat (bufferCursor r.loop r.lbo ebo cbo)) } := by
  unfold sampleEnd bufferCursor
  by_cases h : ebo ≤ cbo <;> cases r.loop <;> simp [h, hs]

/-- The end of a call on a buffer voice changes only `CBO` of its locals,
    to the value `bufferCursor` gives. -/
theorem sampleRegs_sampleEnd_buffer (st : SampleState) (v : Nat) (r : SampleRegs) (ebo cbo : Nat)
    (hs : r.stream = false) (hl : r.lbo < 2 ^ 24) (he : ebo < 2 ^ 24) :
    sampleRegs (sampleEnd st v r ebo cbo).apu v =
      { sampleRegs st.apu v with cbo := bufferCursor r.loop r.lbo ebo cbo } := by
  have hlt : bufferCursor r.loop r.lbo ebo cbo < 2 ^ 24 := bufferCursor_lt hl he
  have hval : (UInt32.ofNat (bufferCursor r.loop r.lbo ebo cbo)).toNat =
      bufferCursor r.loop r.lbo ebo cbo := by
    rw [UInt32.toNat_ofNat', Nat.mod_eq_of_lt (by omega)]
  rw [sampleEnd_buffer st v r ebo cbo hs]
  dsimp only
  rw [sampleRegs_setCbo _ _ _ _ (by omega), if_pos rfl, hval]
  split_ifs
  · rw [SampleState.voiceOff_apu, sampleRegs_voiceOff]
  · rfl

/-- One call on a buffer voice reads what `bufferCall` says and moves `CBO`
    where it says, leaving every other local: the voice is still read as a
    buffer. -/
theorem voiceGetSamples_bufferCall {st : SampleState} {v : Nat} {r : SampleRegs}
    (hr : sampleRegs st.apu v = r) (hb : BufferVoice st v) (n : Nat) :
    ∃ st', voiceGetSamples st v n = .ok (st', some (bufferCall r.loop r.lbo r.ebo r.cbo n).1) ∧
      sampleRegs st'.apu v = { r with cbo := (bufferCall r.loop r.lbo r.ebo r.cbo n).2 } ∧
      BufferVoice st' v := by
  subst hr
  have hregs := sampleRegs_sampleEnd_buffer
    { st with apu := voiceSetMask st.apu v nvPavsVoiceParState nvPavsVoiceParStateNewVoice 0 } v
    (sampleRegs st.apu v) (sampleRegs st.apu v).ebo
    ((sampleRegs st.apu v).cbo + min n ((sampleRegs st.apu v).ebo + 1 - (sampleRegs st.apu v).cbo))
    hb.notStream (sampleRegs_lbo_lt _ _) (sampleRegs_ebo_lt _ _)
  rw [sampleRegs_voiceSetMask_parState _ _ _ (by decide)] at hregs
  refine ⟨_, voiceGetSamples_buffer hb n, hregs, ⟨hb.handle, ?_, ?_, ?_⟩⟩
  · rw [hregs]; exact hb.notMultipass
  · rw [hregs]; exact hb.notPaused
  · rw [hregs]; exact hb.notStream

/-- A run of calls on a buffer voice reads what `requestRun` of
    `bufferCall` says. -/
theorem voiceGetSamplesRun_buffer {v : Nat} : ∀ (ns : List Nat) {st : SampleState} {r : SampleRegs},
    sampleRegs st.apu v = r → BufferVoice st v →
    ∃ st', voiceGetSamplesRun st v ns =
        .ok (st', (requestRun (bufferCall r.loop r.lbo r.ebo) r.cbo ns).1) ∧
      sampleRegs st'.apu v = { r with cbo := (requestRun (bufferCall r.loop r.lbo r.ebo) r.cbo ns).2 } ∧
      BufferVoice st' v := by
  intro ns
  induction ns with
  | nil =>
    intro st r hr hb
    exact ⟨st, rfl, hr, hb⟩
  | cons n ns ih =>
    intro st r hr hb
    obtain ⟨st₁, h₁, hr₁, hb₁⟩ := voiceGetSamples_bufferCall hr hb n
    obtain ⟨st₂, h₂, hr₂, hb₂⟩ := ih hr₁ hb₁
    refine ⟨st₂, ?_, hr₂, hb₂⟩
    simp only [voiceGetSamplesRun, h₁, h₂, requestRun]
    rfl

/-! ## Section 5: The loop order

    What a looping buffer voice should play: `CBO .. EBO`, then
    `LBO .. EBO` again and again (`loopWalk`), a request taking the next
    offsets but none past `EBO` (`loopCall`).  However the requests split,
    they read the loop order (`requestRun_loopCall`).  The code serves
    every request so, except one that stops right before `EBO`
    (`bufferCall_eq_loopCall`, `bufferCall_stop_before_ebo`). -/

/-- The offset after `c` when a voice loops over `[lbo, ebo]`. -/
def loopNext (lbo ebo c : Nat) : Nat := if c < ebo then c + 1 else lbo

/-- The first `k` offsets of the loop order from `c`. -/
def loopWalk (lbo ebo : Nat) : Nat → Nat → List Nat
  | _, 0 => []
  | c, k + 1 => c :: loopWalk lbo ebo (loopNext lbo ebo c) k

/-- A request of `n` samples served in the loop order from `c`: up to `n`
    offsets but none past `ebo`, and where the next request begins. -/
def loopCall (lbo ebo c n : Nat) : List Nat × Nat :=
  let k := min n (ebo + 1 - c)
  (loopWalk lbo ebo c k, (loopNext lbo ebo)^[k] c)

/-- Whether one of the requests `ns`, served in the loop order from `c`,
    stops right before `ebo`: it asks for the offsets up to `ebo - 1`
    exactly. -/
def stopsBeforeEbo (lbo ebo : Nat) : Nat → List Nat → Bool
  | _, [] => false
  | c, n :: ns => c + n == ebo || stopsBeforeEbo lbo ebo (loopCall lbo ebo c n).2 ns

theorem loopWalk_add (lbo ebo a : Nat) : ∀ c b : Nat,
    loopWalk lbo ebo c (a + b) =
      loopWalk lbo ebo c a ++ loopWalk lbo ebo ((loopNext lbo ebo)^[a] c) b := by
  induction a with
  | zero =>
    intro c b
    simp [loopWalk]
  | succ a ih =>
    intro c b
    rw [Nat.succ_add, loopWalk, loopWalk, ih, Function.iterate_succ_apply]
    rfl

/-- Up to `ebo` the loop order counts up. -/
theorem loopNext_iterate_of_le {lbo ebo : Nat} : ∀ {k c : Nat}, c + k ≤ ebo →
    (loopNext lbo ebo)^[k] c = c + k
  | 0, _, _ => rfl
  | k + 1, c, h => by
    rw [Function.iterate_succ_apply, loopNext, if_pos (by omega), loopNext_iterate_of_le (by omega)]
    omega

theorem loopWalk_of_le {lbo ebo : Nat} : ∀ {k c : Nat}, c + k ≤ ebo + 1 →
    loopWalk lbo ebo c k = List.range' c k
  | 0, _, _ => rfl
  | k + 1, c, h => by
    rw [loopWalk, List.range'_succ]
    cases k with
    | zero => rfl
    | succ k => rw [loopNext, if_pos (by omega), loopWalk_of_le (by omega)]

/-- After `ebo` the loop order goes back to `lbo`. -/
theorem loopNext_iterate_end {lbo ebo c : Nat} (h : c ≤ ebo) :
    (loopNext lbo ebo)^[ebo + 1 - c] c = lbo := by
  rw [show ebo + 1 - c = (ebo - c) + 1 by omega, Function.iterate_succ_apply',
    loopNext_iterate_of_le (by omega), loopNext, if_neg (by omega)]

/-- The loop order never leaves `[0, ebo]` once in it. -/
theorem loopNext_iterate_le {lbo ebo : Nat} (hl : lbo ≤ ebo) : ∀ (k : Nat) {c : Nat}, c ≤ ebo →
    (loopNext lbo ebo)^[k] c ≤ ebo
  | 0, _, hc => hc
  | k + 1, c, hc => by
    rw [Function.iterate_succ_apply]
    apply loopNext_iterate_le hl k
    unfold loopNext
    split_ifs <;> omega

/-- Requests served in the loop order read it from `c` on, however they
    split. -/
theorem requestRun_loopCall (lbo ebo : Nat) : ∀ (ns : List Nat) (c : Nat),
    ∃ m, requestRun (loopCall lbo ebo) c ns = (loopWalk lbo ebo c m, (loopNext lbo ebo)^[m] c) := by
  intro ns
  induction ns with
  | nil =>
    intro c
    exact ⟨0, rfl⟩
  | cons n ns ih =>
    intro c
    obtain ⟨m, hm⟩ := ih (loopCall lbo ebo c n).2
    refine ⟨min n (ebo + 1 - c) + m, ?_⟩
    rw [requestRun, hm, loopWalk_add, Nat.add_comm _ m, Function.iterate_add_apply]
    rfl

/-- A call that stops right before `EBO` reads up to `EBO - 1` and moves
    `CBO` to `LBO`, or to `EBO` for a voice that does not loop. -/
theorem bufferCall_stop_before_ebo (loop : Bool) {lbo ebo c : Nat} (hc : c ≤ ebo) :
    bufferCall loop lbo ebo c (ebo - c) = (List.range' c (ebo - c), if loop then lbo else ebo) := by
  have hk : min (ebo - c) (ebo + 1 - c) = ebo - c := by omega
  simp only [bufferCall, bufferCursor, hk, if_pos (show ebo ≤ c + (ebo - c) by omega)]

/-- Any other call of a looping voice serves the loop order. -/
theorem bufferCall_eq_loopCall {lbo ebo c n : Nat} (hc : c ≤ ebo) (hn : c + n ≠ ebo) :
    bufferCall true lbo ebo c n = loopCall lbo ebo c n := by
  have hk : c + min n (ebo + 1 - c) ≤ ebo + 1 := by omega
  simp only [bufferCall, loopCall, loopWalk_of_le hk, bufferCursor, if_true]
  congr 1
  by_cases hend : ebo ≤ c + min n (ebo + 1 - c)
  · -- the request reaches past `ebo`: both go back to `lbo`
    have hmin : min n (ebo + 1 - c) = ebo + 1 - c := by omega
    rw [if_pos hend, hmin, loopNext_iterate_end hc]
  · rw [if_neg hend, loopNext_iterate_of_le (by omega)]

/-- Requests none of which stops right before `EBO` read a looping voice in
    the loop order. -/
theorem requestRun_bufferCall_eq {lbo ebo : Nat} (hl : lbo ≤ ebo) : ∀ (ns : List Nat) {c : Nat},
    c ≤ ebo → stopsBeforeEbo lbo ebo c ns = false →
    requestRun (bufferCall true lbo ebo) c ns = requestRun (loopCall lbo ebo) c ns := by
  intro ns
  induction ns with
  | nil =>
    intro c _ _
    rfl
  | cons n ns ih =>
    intro c hc hs
    simp only [stopsBeforeEbo, Bool.or_eq_false_iff, beq_eq_false_iff_ne] at hs
    have hnext : (loopCall lbo ebo c n).2 ≤ ebo := loopNext_iterate_le hl _ hc
    rw [requestRun, requestRun, bufferCall_eq_loopCall hc hs.1, ih hnext hs.2]

/-- A looping buffer voice with `LBO` and `CBO` at most `EBO`, read by
    requests none of which stops right before `EBO`, plays the loop order
    `CBO .. EBO, LBO .. EBO, ...`. -/
theorem voiceGetSamplesRun_loop_order {st : SampleState} {v : Nat} {r : SampleRegs}
    (hr : sampleRegs st.apu v = r) (hb : BufferVoice st v) (hloop : r.loop = true)
    (hl : r.lbo ≤ r.ebo) (hc : r.cbo ≤ r.ebo) (ns : List Nat)
    (hs : stopsBeforeEbo r.lbo r.ebo r.cbo ns = false) :
    ∃ st' m, voiceGetSamplesRun st v ns = .ok (st', loopWalk r.lbo r.ebo r.cbo m) := by
  obtain ⟨st', h, -, -⟩ := voiceGetSamplesRun_buffer ns hr hb
  obtain ⟨m, hm⟩ := requestRun_loopCall r.lbo r.ebo ns r.cbo
  refine ⟨st', m, ?_⟩
  rw [h, hloop, requestRun_bufferCall_eq hl ns hc hs, hm]

theorem voice_get_samples_split_skips_ebo (st : SampleState) (v : Nat) (r : SampleRegs)
    (hr : sampleRegs st.apu v = r) (hb : BufferVoice st v) (hloop : r.loop = true)
    (hlt : r.cbo < r.ebo) (hle : r.lbo ≤ r.ebo) :
    (voiceGetSamplesRun st v [r.ebo - r.cbo, 1]).map Prod.snd =
        .ok (List.range' r.cbo (r.ebo - r.cbo) ++ [r.lbo]) ∧
      (voiceGetSamplesRun st v [r.ebo - r.cbo + 1]).map Prod.snd =
        .ok (loopWalk r.lbo r.ebo r.cbo (r.ebo - r.cbo + 1)) ∧
      loopWalk r.lbo r.ebo r.cbo (r.ebo - r.cbo + 1) = List.range' r.cbo (r.ebo - r.cbo) ++ [r.ebo] := by
  obtain ⟨st₁, h₁, -, -⟩ := voiceGetSamplesRun_buffer [r.ebo - r.cbo, 1] hr hb
  obtain ⟨st₂, h₂, -, -⟩ := voiceGetSamplesRun_buffer [r.ebo - r.cbo + 1] hr hb
  have hwalk : loopWalk r.lbo r.ebo r.cbo (r.ebo - r.cbo + 1) =
      List.range' r.cbo (r.ebo - r.cbo) ++ [r.ebo] := by
    rw [loopWalk_of_le (by omega), List.range'_1_concat, show r.cbo + (r.ebo - r.cbo) = r.ebo by omega]
  refine ⟨?_, ?_, hwalk⟩
  · -- the first call wraps to `LBO` before `EBO`; the second reads `LBO`
    have hlbo : bufferCall true r.lbo r.ebo r.lbo 1 =
        ([r.lbo], bufferCursor true r.lbo r.ebo (r.lbo + 1)) := by
      simp only [bufferCall, show min 1 (r.ebo + 1 - r.lbo) = 1 by omega, List.range'_one]
    rw [h₁, hloop]
    simp [requestRun, bufferCall_stop_before_ebo true hlt.le, hlbo, Except.map]
  · -- one request reads through `EBO`
    rw [h₂, hloop, Except.map, requestRun, requestRun, bufferCall_eq_loopCall hlt.le (by omega)]
    simp [loopCall, show min (r.ebo - r.cbo + 1) (r.ebo + 1 - r.cbo) = r.ebo - r.cbo + 1 by omega]

/-- Voice 0 active, looping, with `CBO = 0`, `EBO = 2` and `LBO = 0`. -/
def loopingVoiceZeroTwo : SampleState where
  apu := { regs := fun _ => 0
           voices := fun _ o =>
             if o = nvPavsVoiceCfgFmt then nvPavsVoiceCfgFmtLoop
             else if o = nvPavsVoiceParState then nvPavsVoiceParStateActiveVoice
             else if o = nvPavsVoiceParNext then 2 else 0 }
  ssl := fun _ => ⟨fun _ => 0, fun _ => 0, 0, 0⟩
  mem := fun _ => 0

theorem voice_get_samples_split_skips_ebo_zero_two :
    (voiceGetSamplesRun loopingVoiceZeroTwo 0 [2, 1]).map Prod.snd = .ok [0, 1, 0] ∧
      (voiceGetSamplesRun loopingVoiceZeroTwo 0 [3]).map Prod.snd = .ok [0, 1, 2] := by
  obtain ⟨hsplit, hone, hwalk⟩ := voice_get_samples_split_skips_ebo loopingVoiceZeroTwo 0
    ⟨false, 0, false, false, true, 2, 0, 0, 1, false, false⟩ (by decide)
    ⟨by decide, by decide, by decide, by decide⟩ rfl (by decide) (by decide)
  exact ⟨hsplit, hone.trans (congrArg Except.ok hwalk)⟩

/-! ### Stream voices

    A stream voice plays its segment up to `seg_len - 1` with the same
    loop and end test, so a request that stops right before the last
    sample moves to the next segment without reading it. -/

/-- One call on a PCM stream voice whose prologue found a segment of
    `segLen` samples: the loop up to `segLen - 1`, then the end. -/
theorem voiceGetSamples_stream {st : SampleState} {v segLen : Nat} (n : Nat)
    (hv : v < mcpxHwMaxVoices) (hm : (sampleRegs st.apu v).multipass = false)
    (hp : (sampleRegs st.apu v).paused = false) (hs : (sampleRegs st.apu v).stream = true)
    (hpcm : (sampleRegs st.apu v).containerSizeIndex ≠ nvPavsVoiceCfgFmtContainerSizeAdpcm)
    (hseg : streamSegment
      { st with apu := voiceSetMask st.apu v nvPavsVoiceParState nvPavsVoiceParStateNewVoice 0 } v
      (sampleRegs st.apu v) = .ok (.inr segLen)) :
    voiceGetSamples st v n =
      .ok (sampleEnd
          { st with apu := voiceSetMask st.apu v nvPavsVoiceParState nvPavsVoiceParStateNewVoice 0 } v
          (sampleRegs st.apu v) (segLen - 1)
          ((sampleRegs st.apu v).cbo + min n (segLen - 1 + 1 - (sampleRegs st.apu v).cbo)),
        some (List.range' (sampleRegs st.apu v).cbo (min n (segLen - 1 + 1 - (sampleRegs st.apu v).cbo)))) := by
  have hv' : ¬ mcpxHwMaxVoices ≤ v := Nat.not_le.mpr hv
  -- a PCM stream checks no block
  have hok : (fun b => !((sampleRegs st.apu v).containerSizeIndex == nvPavsVoiceCfgFmtContainerSizeAdpcm) ||
      adpcmBlockOk (sampleRegs st.apu v) segLen b) = fun _ => true := by
    funext b
    simp [hpcm]
  simp only [voiceGetSamples, if_neg hv', hm, hp, hs, hseg, readSamples, hok, sampleLoop_true]
  rfl

/-- At or past the end of its segment a stream voice moves to the next
    segment, or after the last one to the other list, and `CBO` goes back
    to 0. -/
theorem sampleEnd_stream_ssl (st : SampleState) (v : Nat) (r : SampleRegs) {ebo cbo : Nat}
    (hs : r.stream = true) (h : ebo ≤ cbo) :
    (sampleEnd st v r ebo cbo).ssl v =
        (if (st.ssl v).sslSeg + 1 < ((st.ssl v).count (st.ssl v).sslIndex).toNat then
          { st.ssl v with sslSeg := (st.ssl v).sslSeg + 1 }
        else { st.ssl v with sslIndex := (st.ssl v).sslIndex + 1, sslSeg := 0 }) ∧
      (sampleRegs (sampleEnd st v r ebo cbo).apu v).cbo = 0 := by
  unfold sampleEnd
  simp only [if_pos h, hs, if_true]
  split_ifs <;>
  · refine ⟨by simp, ?_⟩
    rw [sampleRegs_setCbo _ _ _ _ (by simp), if_pos rfl]
    rfl

/-- A request that stops right before the last sample of a PCM stream's
    segment reads up to `seg_len - 2` and moves on to the next segment (or
    list) with `CBO = 0`: the sample at `seg_len - 1` is never read. -/
theorem voiceGetSamples_stream_stop_before_end {st : SampleState} {v segLen : Nat}
    (hv : v < mcpxHwMaxVoices) (hm : (sampleRegs st.apu v).multipass = false)
    (hp : (sampleRegs st.apu v).paused = false) (hs : (sampleRegs st.apu v).stream = true)
    (hpcm : (sampleRegs st.apu v).containerSizeIndex ≠ nvPavsVoiceCfgFmtContainerSizeAdpcm)
    (hseg : streamSegment
      { st with apu := voiceSetMask st.apu v nvPavsVoiceParState nvPavsVoiceParStateNewVoice 0 } v
      (sampleRegs st.apu v) = .ok (.inr segLen))
    (hc : (sampleRegs st.apu v).cbo < segLen - 1) :
    ∃ st', voiceGetSamples st v (segLen - 1 - (sampleRegs st.apu v).cbo) =
        .ok (st', some (List.range' (sampleRegs st.apu v).cbo (segLen - 1 - (sampleRegs st.apu v).cbo))) ∧
      (st'.ssl v = if (st.ssl v).sslSeg + 1 < ((st.ssl v).count (st.ssl v).sslIndex).toNat then
          { st.ssl v with sslSeg := (st.ssl v).sslSeg + 1 }
        else { st.ssl v with sslIndex := (st.ssl v).sslIndex + 1, sslSeg := 0 }) ∧
      (sampleRegs st'.apu v).cbo = 0 := by
  have hk : min (segLen - 1 - (sampleRegs st.apu v).cbo) (segLen - 1 + 1 - (sampleRegs st.apu v).cbo) =
      segLen - 1 - (sampleRegs st.apu v).cbo := by omega
  rw [voiceGetSamples_stream _ hv hm hp hs hpcm hseg, hk]
  exact ⟨_, rfl, sampleEnd_stream_ssl _ v _ hs (by omega)⟩

/-! ## Section 6: The frame's requests

    `voice_resample_callback` asks for the rest of the frame until it has
    `NUM_SAMPLES_PER_FRAME` samples, so it stops only when a request reads
    something or turns the voice off.  A looping voice never goes off. -/

/-- A write to another word leaves the active bit. -/
theorem activeVoice_setCbo (st : ApuVoices) (v w : Nat) (x : UInt32) :
    voiceGetMask (voiceSetMask st v nvPavsVoiceParOffset nvPavsVoiceParOffsetCbo x) w
        nvPavsVoiceParState nvPavsVoiceParStateActiveVoice =
      voiceGetMask st w nvPavsVoiceParState nvPavsVoiceParStateActiveVoice := by
  simp [voiceGetMask_voiceSetMask]

theorem activeVoice_newVoice (st : ApuVoices) (v w : Nat) :
    voiceGetMask (voiceSetMask st v nvPavsVoiceParState nvPavsVoiceParStateNewVoice 0) w
        nvPavsVoiceParState nvPavsVoiceParStateActiveVoice =
      voiceGetMask st w nvPavsVoiceParState nvPavsVoiceParStateActiveVoice := by
  rw [voiceGetMask_voiceSetMask]
  split_ifs with h
  · obtain ⟨rfl, -⟩ := h
    exact getMask_setMask_of_disjoint (by decide)
  · rfl

/-- A call on a looping buffer voice leaves it active or inactive. -/
theorem activeVoice_voiceGetSamples_loop {st st' : SampleState} {v n : Nat}
    {offsets : Option (List Nat)} (hb : BufferVoice st v) (hloop : (sampleRegs st.apu v).loop = true)
    (h : voiceGetSamples st v n = .ok (st', offsets)) :
    voiceGetMask st'.apu v nvPavsVoiceParState nvPavsVoiceParStateActiveVoice =
      voiceGetMask st.apu v nvPavsVoiceParState nvPavsVoiceParStateActiveVoice := by
  rw [voiceGetSamples_buffer hb n, Except.ok.injEq, Prod.mk.injEq] at h
  rw [← h.1, sampleEnd_buffer _ _ _ _ _ hb.notStream, hloop]
  simp only [Bool.true_eq_false, and_false, if_false]
  rw [activeVoice_setCbo, activeVoice_newVoice]

/-- On a looping buffer voice whose `CBO` and `LBO` lie past `EBO`, every
    request reads nothing and puts `CBO` back at `LBO`: the callback's loop
    runs out of any fuel. -/
theorem resampleLoop_lbo_gt_ebo {v : Nat} : ∀ (fuel : Nat) {st : SampleState} {r : SampleRegs}
    (c : Nat), sampleRegs st.apu v = r → BufferVoice st v → r.loop = true → r.ebo < r.lbo →
    r.ebo < r.cbo → c < numSamplesPerFrame →
    voiceGetMask st.apu v nvPavsVoiceParState nvPavsVoiceParStateActiveVoice ≠ 0 →
    resampleLoop v fuel st c = .ok none := by
  intro fuel
  induction fuel with
  | zero =>
    intros
    rfl
  | succ fuel ih =>
    intro st r c hr hb hloop hlbo hcbo hc hact
    obtain ⟨st', h, hr', hb'⟩ := voiceGetSamples_bufferCall hr hb (numSamplesPerFrame - c)
    -- nothing is read, and `CBO` goes back to `LBO`
    have hcall : bufferCall r.loop r.lbo r.ebo r.cbo (numSamplesPerFrame - c) = ([], r.lbo) := by
      simp [bufferCall, bufferCursor, hloop, show r.ebo + 1 - r.cbo = 0 by omega,
        show r.ebo ≤ r.cbo by omega]
    have hact' := activeVoice_voiceGetSamples_loop hb (hr ▸ hloop) h
    rw [hcall] at h hr'
    rw [resampleLoop, if_neg (by omega), if_neg hact, h]
    simp only [List.length_nil, Nat.add_zero]
    rw [ih c hr' hb' hloop hlbo hlbo hc (hact' ▸ hact)]

/-- On a looping buffer voice with `LBO` and `CBO` at most `EBO`, every
    request reads at least one sample, so the callback fills the frame
    within `NUM_SAMPLES_PER_FRAME` requests. -/
theorem resampleLoop_fills {v : Nat} : ∀ (fuel : Nat) {st : SampleState} {r : SampleRegs} (c : Nat),
    sampleRegs st.apu v = r → BufferVoice st v → r.loop = true → r.lbo ≤ r.ebo → r.cbo ≤ r.ebo →
    c ≤ numSamplesPerFrame → numSamplesPerFrame - c < fuel →
    voiceGetMask st.apu v nvPavsVoiceParState nvPavsVoiceParStateActiveVoice ≠ 0 →
    ∃ st' offsets, resampleLoop v fuel st c = .ok (some (st', offsets)) ∧
      c + offsets.length = numSamplesPerFrame := by
  intro fuel
  induction fuel with
  | zero =>
    intro st r c _ _ _ _ _ _ hfuel
    omega
  | succ fuel ih =>
    intro st r c hr hb hloop hlbo hcbo hc hfuel hact
    by_cases hfull : numSamplesPerFrame ≤ c
    · exact ⟨st, [], by rw [resampleLoop, if_pos hfull], by simp; omega⟩
    obtain ⟨st', h, hr', hb'⟩ := voiceGetSamples_bufferCall hr hb (numSamplesPerFrame - c)
    have hact' := activeVoice_voiceGetSamples_loop hb (hr ▸ hloop) h
    -- the request reads `k ≥ 1` samples and leaves `CBO` at most `EBO`
    set k := min (numSamplesPerFrame - c) (r.ebo + 1 - r.cbo) with hk
    have hlen : (bufferCall r.loop r.lbo r.ebo r.cbo (numSamplesPerFrame - c)).1.length = k := by
      simp [bufferCall, hk]
    have hnext : (bufferCall r.loop r.lbo r.ebo r.cbo (numSamplesPerFrame - c)).2 ≤ r.ebo := by
      simp only [bufferCall, bufferCursor, hloop, if_true]
      split_ifs <;> omega
    obtain ⟨st'', rest, hrest, hcount⟩ := ih (c + k) hr' hb' hloop hlbo hnext (by omega) (by omega)
      (hact' ▸ hact)
    refine ⟨st'', (bufferCall r.loop r.lbo r.ebo r.cbo (numSamplesPerFrame - c)).1 ++ rest, ?_, ?_⟩
    · rw [resampleLoop, if_neg hfull, if_neg hact, h]
      simp only [hlen, hrest]
    · rw [List.length_append, hlen]
      omega

example : (voiceResampleCallback 33 loopingVoiceZeroTwo 0).map (Option.map Prod.snd) =
    .ok (some ((List.replicate 10 [some 0, some 1, some 2]).flatten ++ [some 0, some 1])) := by
  decide

end Xemu.Apu
