import Mathlib
import Xemu.Lib.Word

/-! # Voice envelopes

    Model of the envelope part of the voice processor in
    `hw/xbox/mcpx/apu/vp/vp.c`: the voice records as the front end's
    methods write them (`fe_method`: `VOICE_ON`, `VOICE_RELEASE`,
    `VOICE_OFF`, `VOICE_PAUSE`, `SET_CURRENT_VOICE`,
    `SET_ANTECEDENT_VOICE` and the `SET_VOICE_CFG_*` words the envelopes
    read), `voice_step_envelope`, and the two envelope steps of
    `voice_process` with their asserts.

    Each voice has two envelopes, the filter envelope (EF) and the
    amplitude envelope (EA), stepped once a frame by the same function on
    different registers.  An envelope's phase is a 4-bit field of
    `PAR_STATE`; the hardware names eight phases, `OFF` to
    `FORCE_RELEASE`, and `voice_step_envelope` aborts on any other value.
    Levels are computed in `float`; the model computes them in `ℚ` and
    takes `powf` as a parameter.  An assert that fails is an `error` that
    names it.

    The results:
    * in `DECAY` the exponent is negative once the count exceeds sixteen
      times the decay rate, which a `SET_VOICE_CFG_ENVA` in mid-phase can
      arrange: the level then exceeds 1, and `voice_process`'s assert
      fails (`voiceStepEnvelope_decay`);
    * a phase changes only by an envelope step that moves it one phase on,
      below `FORCE_RELEASE`, and by `VOICE_ON` and `VOICE_RELEASE`
      (`feMethod_phasesKnown`, `voiceProcessEnvelopes_phasesKnown`), and a
      step in a named phase never reaches the default branch
      (`voiceProcessEnvelopes_ne_unknown`); `Xemu.Apu.Frame` carries both
      over whole runs of methods and frames.

    Not modelled: the notifier that `voice_off` writes to guest memory
    outside the voice records, the stream voices' `ssl` indices that it
    checks, the voice locks (they only order the worker threads), the
    filters `VOICE_ON` resets, and the registers `FEDECMETH` and
    `FEDECPARAM` that record the last method.
-/

namespace Xemu.Apu

open Function Xemu.Word

/-! ## Section 1: Registers -/

/-- `MCPX_HW_MAX_VOICES` -/
abbrev mcpxHwMaxVoices : Nat := 256

/-- `NV_PAPU_ISTS` -/
abbrev nvPapuIsts : Nat := 0x1000
/-- `NV_PAPU_ISTS_FENINTSTS` -/
abbrev nvPapuIstsFenintsts : UInt32 := (1 : UInt32) <<< 5
/-- `NV_PAPU_ISTS_FEVINTSTS` -/
abbrev nvPapuIstsFevintsts : UInt32 := (1 : UInt32) <<< 6
/-- `NV_PAPU_FECV`: the current voice of the `SET_VOICE_*` methods -/
abbrev nvPapuFecv : Nat := 0x1110
/-- `NV_PAPU_FEAV`: the antecedent voice and list of `VOICE_ON` -/
abbrev nvPapuFeav : Nat := 0x1118
/-- `NV_PAPU_FEAV_VALUE` -/
abbrev nvPapuFeavValue : UInt32 := 0x0000FFFF
/-- `NV_PAPU_FEAV_LST` -/
abbrev nvPapuFeavLst : UInt32 := 0x00030000
/-- `NV_PAPU_TVL2D` -/
abbrev nvPapuTvl2d : Nat := 0x2054
/-- `NV_PAPU_TVL3D` -/
abbrev nvPapuTvl3d : Nat := 0x2060
/-- `NV_PAPU_TVLMP` -/
abbrev nvPapuTvlmp : Nat := 0x206C

/-- `NV1BA0_PIO_SET_ANTECEDENT_VOICE_LIST_INHERIT` -/
abbrev nv1ba0PioSetAntecedentVoiceListInherit : UInt32 := 0
/-- `NV1BA0_PIO_VOICE_ON_HANDLE` -/
abbrev nv1ba0PioVoiceOnHandle : UInt32 := 0x0000FFFF
/-- `NV1BA0_PIO_VOICE_ON_ENVF` -/
abbrev nv1ba0PioVoiceOnEnvf : UInt32 := 0x0F000000
/-- `NV1BA0_PIO_VOICE_ON_ENVA` -/
abbrev nv1ba0PioVoiceOnEnva : UInt32 := 0xF0000000
/-- `NV1BA0_PIO_VOICE_OFF_HANDLE` -/
abbrev nv1ba0PioVoiceOffHandle : UInt32 := 0x0000FFFF
/-- `NV1BA0_PIO_VOICE_PAUSE_HANDLE` -/
abbrev nv1ba0PioVoicePauseHandle : UInt32 := 0x0000FFFF
/-- `NV1BA0_PIO_VOICE_PAUSE_ACTION` -/
abbrev nv1ba0PioVoicePauseAction : UInt32 := (1 : UInt32) <<< 18

/-- `NV_PAVS_VOICE_CFG_ENV0` -/
abbrev nvPavsVoiceCfgEnv0 : Nat := 0x08
/-- `NV_PAVS_VOICE_CFG_ENV0_EA_ATTACKRATE` -/
abbrev nvPavsVoiceCfgEnv0EaAttackrate : UInt32 := (0xFFF : UInt32) <<< 0
/-- `NV_PAVS_VOICE_CFG_ENV0_EA_DELAYTIME` -/
abbrev nvPavsVoiceCfgEnv0EaDelaytime : UInt32 := (0xFFF : UInt32) <<< 12
/-- `NV_PAVS_VOICE_CFG_ENVA` -/
abbrev nvPavsVoiceCfgEnva : Nat := 0x0C
/-- `NV_PAVS_VOICE_CFG_ENVA_EA_DECAYRATE` -/
abbrev nvPavsVoiceCfgEnvaEaDecayrate : UInt32 := (0xFFF : UInt32) <<< 0
/-- `NV_PAVS_VOICE_CFG_ENVA_EA_HOLDTIME` -/
abbrev nvPavsVoiceCfgEnvaEaHoldtime : UInt32 := (0xFFF : UInt32) <<< 12
/-- `NV_PAVS_VOICE_CFG_ENVA_EA_SUSTAINLEVEL` -/
abbrev nvPavsVoiceCfgEnvaEaSustainlevel : UInt32 := (0xFF : UInt32) <<< 24
/-- `NV_PAVS_VOICE_CFG_ENV1` -/
abbrev nvPavsVoiceCfgEnv1 : Nat := 0x10
/-- `NV_PAVS_VOICE_CFG_ENVF` -/
abbrev nvPavsVoiceCfgEnvf : Nat := 0x14
/-- `NV_PAVS_VOICE_CFG_MISC` -/
abbrev nvPavsVoiceCfgMisc : Nat := 0x18
/-- `NV_PAVS_VOICE_CFG_MISC_EF_RELEASERATE` -/
abbrev nvPavsVoiceCfgMiscEfReleaserate : UInt32 := (0xFFF : UInt32) <<< 0
/-- `NV_PAVS_VOICE_CUR_ECNT` -/
abbrev nvPavsVoiceCurEcnt : Nat := 0x34
/-- `NV_PAVS_VOICE_CUR_ECNT_EACOUNT` -/
abbrev nvPavsVoiceCurEcntEacount : UInt32 := 0x0000FFFF
/-- `NV_PAVS_VOICE_CUR_ECNT_EFCOUNT` -/
abbrev nvPavsVoiceCurEcntEfcount : UInt32 := 0xFFFF0000
/-- `NV_PAVS_VOICE_PAR_STATE` -/
abbrev nvPavsVoiceParState : Nat := 0x54
/-- `NV_PAVS_VOICE_PAR_STATE_PAUSED` -/
abbrev nvPavsVoiceParStatePaused : UInt32 := (1 : UInt32) <<< 18
/-- `NV_PAVS_VOICE_PAR_STATE_ACTIVE_VOICE` -/
abbrev nvPavsVoiceParStateActiveVoice : UInt32 := (1 : UInt32) <<< 21
/-- `NV_PAVS_VOICE_PAR_STATE_EFCUR` -/
abbrev nvPavsVoiceParStateEfcur : UInt32 := (0xF : UInt32) <<< 24
/-- `NV_PAVS_VOICE_PAR_STATE_EACUR` -/
abbrev nvPavsVoiceParStateEacur : UInt32 := (0xF : UInt32) <<< 28
/-- `NV_PAVS_VOICE_PAR_OFFSET` -/
abbrev nvPavsVoiceParOffset : Nat := 0x58
/-- `NV_PAVS_VOICE_PAR_OFFSET_CBO` -/
abbrev nvPavsVoiceParOffsetCbo : UInt32 := 0x00FFFFFF
/-- `NV_PAVS_VOICE_PAR_OFFSET_EALVL` -/
abbrev nvPavsVoiceParOffsetEalvl : UInt32 := 0xFF000000
/-- `NV_PAVS_VOICE_PAR_NEXT` -/
abbrev nvPavsVoiceParNext : Nat := 0x5C
/-- `NV_PAVS_VOICE_PAR_NEXT_EFLVL` -/
abbrev nvPavsVoiceParNextEflvl : UInt32 := 0xFF000000
/-- `NV_PAVS_VOICE_TAR_LFO_ENV` -/
abbrev nvPavsVoiceTarLfoEnv : Nat := 0x6C
/-- `NV_PAVS_VOICE_TAR_LFO_ENV_EA_RELEASERATE` -/
abbrev nvPavsVoiceTarLfoEnvEaReleaserate : UInt32 := (0xFFF : UInt32) <<< 0
/-- `NV_PAVS_VOICE_TAR_PITCH_LINK` -/
abbrev nvPavsVoiceTarPitchLink : Nat := 0x7C
/-- `NV_PAVS_VOICE_TAR_PITCH_LINK_NEXT_VOICE_HANDLE` -/
abbrev nvPavsVoiceTarPitchLinkNextVoiceHandle : UInt32 := 0x0000FFFF

/-- `NV_PAVS_VOICE_PAR_STATE_EFCUR_*`: the phases of an envelope. -/
inductive EnvPhase
  | off | delay | attack | hold | decay | sustain | release | forceRelease
  deriving DecidableEq, Repr

/-- The value of a phase in the 4-bit `EFCUR` and `EACUR` fields. -/
def EnvPhase.val : EnvPhase → UInt32
  | .off => 0
  | .delay => 1
  | .attack => 2
  | .hold => 3
  | .decay => 4
  | .sustain => 5
  | .release => 6
  | .forceRelease => 7

/-- The cases of `voice_step_envelope`'s switch: the phase a field value
    names, `none` for the values no case names. -/
def EnvPhase.ofNat? : Nat → Option EnvPhase
  | 0 => some .off
  | 1 => some .delay
  | 2 => some .attack
  | 3 => some .hold
  | 4 => some .decay
  | 5 => some .sustain
  | 6 => some .release
  | 7 => some .forceRelease
  | _ => none

theorem EnvPhase.ofNat?_eq_some {n : Nat} {p : EnvPhase} (h : EnvPhase.ofNat? n = some p) :
    n = p.val.toNat := by
  unfold EnvPhase.ofNat? at h
  split at h <;> (try cases h) <;> rfl

theorem EnvPhase.ofNat?_isSome {n : Nat} (h : n ≤ 7) : (EnvPhase.ofNat? n).isSome := by
  interval_cases n <;> rfl

/-- A phase field holding a phase's value selects that phase's case. -/
theorem EnvPhase.ofNat?_val_toUInt8 {x : UInt32} {p : EnvPhase} (h : x = p.val) :
    EnvPhase.ofNat? x.toUInt8.toNat = some p := by
  subst h
  cases p <;> rfl

/-! ## Section 2: The voice records and the methods that write them -/

/-- A voice record in guest memory: its 32-bit words by byte offset. -/
abbrev VoiceRegs := Nat → UInt32

/-- The part of the APU the voice methods read and write. -/
structure ApuVoices where
  /-- `d->regs`: the APU's registers by offset -/
  regs : Nat → UInt32
  /-- the voice records at `NV_PAPU_VPVADDR`, by handle -/
  voices : Nat → VoiceRegs

/-- Why the voice processor aborts: the assert that fails. -/
inductive VpAbort
  /-- `assert(v < MCPX_HW_MAX_VOICES)` on a voice handle -/
  | voiceHandle
  /-- `assert(antecedent_voice != 0xFFFF)` in `VOICE_ON` -/
  | antecedentVoice
  /-- the default branch of `voice_step_envelope` -/
  | unknownEnvelopeState
  /-- `voice_process`'s asserts that an envelope value lies in `[0, 1]` -/
  | envelopeValue
  deriving DecidableEq, Repr

/-- `voice_get_mask` -/
def voiceGetMask (st : ApuVoices) (voiceHandle offset : Nat) (mask : UInt32) : UInt32 :=
  getMask (st.voices voiceHandle offset) mask

/-- `voice_set_mask` -/
def voiceSetMask (st : ApuVoices) (voiceHandle offset : Nat) (mask val : UInt32) :
    ApuVoices :=
  let voice := st.voices voiceHandle
  { st with voices := update st.voices voiceHandle (update voice offset (setMask (voice offset) mask val)) }

@[simp] theorem voiceSetMask_regs (st : ApuVoices) (v o : Nat) (m x : UInt32) :
    (voiceSetMask st v o m x).regs = st.regs := rfl

/-- A write to one field of one word of one voice: every other field reads
    as before. -/
theorem voiceGetMask_voiceSetMask (st : ApuVoices) (v o : Nat) (m x : UInt32) (w o' : Nat)
    (m' : UInt32) :
    voiceGetMask (voiceSetMask st v o m x) w o' m' =
      if w = v ∧ o' = o then getMask (setMask (st.voices v o) m x) m'
      else voiceGetMask st w o' m' := by
  unfold voiceGetMask voiceSetMask
  by_cases hw : w = v
  · subst hw
    by_cases ho : o' = o
    · subst ho; simp
    · simp [ho]
  · simp [hw]

/-- `voice_off`: the voice is no longer active, and the front end raises its
    notifier interrupt (the notifier's status byte in guest memory is not
    modelled). -/
def voiceOff (st : ApuVoices) (v : Nat) : ApuVoices :=
  let st := voiceSetMask st v nvPavsVoiceParState nvPavsVoiceParStateActiveVoice 0
  let ists := st.regs nvPapuIsts ||| nvPapuIstsFevintsts ||| nvPapuIstsFenintsts
  { st with regs := update st.regs nvPapuIsts ists }

/-- `voice_list_regs[list - 1].top`: the top register of list 1 (2D),
    2 (3D) or 3 (multipass). -/
def voiceListTop (list : UInt32) : Nat :=
  if list = 1 then nvPapuTvl2d else if list = 2 then nvPapuTvl3d else nvPapuTvlmp

/-- `VOICE_ON`'s start of one envelope: the phase is taken from the
    argument's field `startMask` as it is, and the count is loaded for
    `DELAY`, `ATTACK` and `HOLD` (from the delay time of `delayReg` and the
    hold time of `holdReg`). -/
def voiceOnEnvelope (st : ApuVoices) (h : Nat) (argument startMask curMask countMask : UInt32)
    (delayReg holdReg : Nat) : ApuVoices :=
  let start := getMask argument startMask
  let st := voiceSetMask st h nvPavsVoiceParState curMask start
  if start = EnvPhase.delay.val then
    let delayTime : UInt16 := (voiceGetMask st h delayReg nvPavsVoiceCfgEnv0EaDelaytime).toUInt16
    voiceSetMask st h nvPavsVoiceCurEcnt countMask (delayTime.toUInt32 * 16)
  else if start = EnvPhase.attack.val then
    voiceSetMask st h nvPavsVoiceCurEcnt countMask 0
  else if start = EnvPhase.hold.val then
    let holdTime : UInt16 := (voiceGetMask st h holdReg nvPavsVoiceCfgEnvaEaHoldtime).toUInt16
    voiceSetMask st h nvPavsVoiceCurEcnt countMask (holdTime.toUInt32 * 16)
  else st

/-- `NV1BA0_PIO_VOICE_ON`: link the voice into the list `FEAV` names (at the
    top of list 1 to 3, or after the antecedent voice), rewind its buffer,
    start both envelopes and mark it active. -/
def voiceOn (st : ApuVoices) (argument : UInt32) : Except VpAbort ApuVoices :=
  let selectedHandle := (argument &&& nv1ba0PioVoiceOnHandle).toNat
  -- `is_voice_locked` asserts that the handle names a voice
  if selectedHandle ≥ mcpxHwMaxVoices then .error .voiceHandle else
  let list := getMask (st.regs nvPapuFeav) nvPapuFeavLst
  let linked : Except VpAbort ApuVoices :=
    if list ≠ nv1ba0PioSetAntecedentVoiceListInherit then
      let topReg := voiceListTop list
      let st := voiceSetMask st selectedHandle nvPavsVoiceTarPitchLink
        nvPavsVoiceTarPitchLinkNextVoiceHandle (st.regs topReg)
      .ok { st with regs := update st.regs topReg selectedHandle.toUInt32 }
    else
      let antecedentVoice := getMask (st.regs nvPapuFeav) nvPapuFeavValue
      if antecedentVoice = 0xFFFF then .error .antecedentVoice else
      let nextHandle := voiceGetMask st antecedentVoice.toNat nvPavsVoiceTarPitchLink
        nvPavsVoiceTarPitchLinkNextVoiceHandle
      let st := voiceSetMask st selectedHandle nvPavsVoiceTarPitchLink
        nvPavsVoiceTarPitchLinkNextVoiceHandle nextHandle
      .ok (voiceSetMask st antecedentVoice.toNat nvPavsVoiceTarPitchLink
        nvPavsVoiceTarPitchLinkNextVoiceHandle selectedHandle.toUInt32)
  match linked with
  | .error e => .error e
  | .ok st =>
    let st := voiceSetMask st selectedHandle nvPavsVoiceParOffset nvPavsVoiceParOffsetCbo 0
    let st := voiceOnEnvelope st selectedHandle argument nv1ba0PioVoiceOnEnva
      nvPavsVoiceParStateEacur nvPavsVoiceCurEcntEacount nvPavsVoiceCfgEnv0 nvPavsVoiceCfgEnva
    let st := voiceOnEnvelope st selectedHandle argument nv1ba0PioVoiceOnEnvf
      nvPavsVoiceParStateEfcur nvPavsVoiceCurEcntEfcount nvPavsVoiceCfgEnv1 nvPavsVoiceCfgEnvf
    .ok (voiceSetMask st selectedHandle nvPavsVoiceParState nvPavsVoiceParStateActiveVoice 1)

/-- `VOICE_RELEASE`'s release of one envelope: the count is loaded from the
    release rate and the phase set to `RELEASE`. -/
def voiceReleaseEnvelope (st : ApuVoices) (h : Nat) (rrReg : Nat) (rrMask curMask countMask : UInt32) :
    ApuVoices :=
  let rr : UInt16 := (voiceGetMask st h rrReg rrMask).toUInt16
  let st := voiceSetMask st h nvPavsVoiceCurEcnt countMask (rr.toUInt32 * 16)
  voiceSetMask st h nvPavsVoiceParState curMask EnvPhase.release.val

/-- `NV1BA0_PIO_VOICE_RELEASE`: both envelopes enter `RELEASE`.  The handle
    is taken with `NV1BA0_PIO_VOICE_ON_HANDLE`, as in the source. -/
def voiceRelease (st : ApuVoices) (argument : UInt32) : Except VpAbort ApuVoices :=
  let selectedHandle := (argument &&& nv1ba0PioVoiceOnHandle).toNat
  if selectedHandle ≥ mcpxHwMaxVoices then .error .voiceHandle else
  let st := voiceReleaseEnvelope st selectedHandle nvPavsVoiceTarLfoEnv
    nvPavsVoiceTarLfoEnvEaReleaserate nvPavsVoiceParStateEacur nvPavsVoiceCurEcntEacount
  .ok (voiceReleaseEnvelope st selectedHandle nvPavsVoiceCfgMisc nvPavsVoiceCfgMiscEfReleaserate
    nvPavsVoiceParStateEfcur nvPavsVoiceCurEcntEfcount)

/-- The `SET_VOICE_*` methods that write a whole word of the current voice
    `FECV`, which `voice_set_mask` takes as a 16-bit handle. -/
def setVoiceWord (st : ApuVoices) (offset : Nat) (argument : UInt32) : ApuVoices :=
  voiceSetMask st (st.regs nvPapuFecv).toUInt16.toNat offset 0xFFFFFFFF argument

/-- The front-end methods that write the registers and voice words the
    envelopes read. -/
inductive FeMethod
  /-- `NV1BA0_PIO_SET_ANTECEDENT_VOICE` -/
  | setAntecedentVoice
  /-- `NV1BA0_PIO_VOICE_ON` -/
  | voiceOn
  /-- `NV1BA0_PIO_VOICE_RELEASE` -/
  | voiceRelease
  /-- `NV1BA0_PIO_VOICE_OFF` -/
  | voiceOff
  /-- `NV1BA0_PIO_VOICE_PAUSE` -/
  | voicePause
  /-- `NV1BA0_PIO_SET_CURRENT_VOICE` -/
  | setCurrentVoice
  /-- `NV1BA0_PIO_SET_VOICE_CFG_ENV0` -/
  | setVoiceCfgEnv0
  /-- `NV1BA0_PIO_SET_VOICE_CFG_ENVA` -/
  | setVoiceCfgEnva
  /-- `NV1BA0_PIO_SET_VOICE_CFG_ENV1` -/
  | setVoiceCfgEnv1
  /-- `NV1BA0_PIO_SET_VOICE_CFG_ENVF` -/
  | setVoiceCfgEnvf
  /-- `NV1BA0_PIO_SET_VOICE_CFG_MISC` -/
  | setVoiceCfgMisc
  /-- `NV1BA0_PIO_SET_VOICE_LFO_ENV` -/
  | setVoiceLfoEnv
  deriving DecidableEq, Repr

/-- `fe_method`, for the methods above. -/
def feMethod (st : ApuVoices) : FeMethod → UInt32 → Except VpAbort ApuVoices
  | .setAntecedentVoice, argument => .ok { st with regs := update st.regs nvPapuFeav argument }
  | .voiceOn, argument => voiceOn st argument
  | .voiceRelease, argument => voiceRelease st argument
  | .voiceOff, argument => .ok (voiceOff st (argument &&& nv1ba0PioVoiceOffHandle).toNat)
  | .voicePause, argument =>
    .ok (voiceSetMask st (argument &&& nv1ba0PioVoicePauseHandle).toNat nvPavsVoiceParState
      nvPavsVoiceParStatePaused (if argument &&& nv1ba0PioVoicePauseAction ≠ 0 then 1 else 0))
  | .setCurrentVoice, argument => .ok { st with regs := update st.regs nvPapuFecv argument }
  | .setVoiceCfgEnv0, argument => .ok (setVoiceWord st nvPavsVoiceCfgEnv0 argument)
  | .setVoiceCfgEnva, argument => .ok (setVoiceWord st nvPavsVoiceCfgEnva argument)
  | .setVoiceCfgEnv1, argument => .ok (setVoiceWord st nvPavsVoiceCfgEnv1 argument)
  | .setVoiceCfgEnvf, argument => .ok (setVoiceWord st nvPavsVoiceCfgEnvf argument)
  | .setVoiceCfgMisc, argument => .ok (setVoiceWord st nvPavsVoiceCfgMisc argument)
  | .setVoiceLfoEnv, argument => .ok (setVoiceWord st nvPavsVoiceTarLfoEnv argument)

/-! ## Section 3: Stepping an envelope -/

/-- The registers of one envelope: `voice_step_envelope`'s arguments
    `reg_0` to `cur_mask`. -/
structure EnvelopeRegs where
  reg0 : Nat
  regA : Nat
  rrReg : Nat
  rrMask : UInt32
  lvlReg : Nat
  lvlMask : UInt32
  countMask : UInt32
  curMask : UInt32

/-- The filter envelope, as `voice_process` steps it. -/
def efEnvelope : EnvelopeRegs :=
  ⟨nvPavsVoiceCfgEnv1, nvPavsVoiceCfgEnvf, nvPavsVoiceCfgMisc, nvPavsVoiceCfgMiscEfReleaserate,
    nvPavsVoiceParNext, nvPavsVoiceParNextEflvl, nvPavsVoiceCurEcntEfcount,
    nvPavsVoiceParStateEfcur⟩

/-- The amplitude envelope, as `voice_process` steps it. -/
def eaEnvelope : EnvelopeRegs :=
  ⟨nvPavsVoiceCfgEnv0, nvPavsVoiceCfgEnva, nvPavsVoiceTarLfoEnv,
    nvPavsVoiceTarLfoEnvEaReleaserate, nvPavsVoiceParOffset, nvPavsVoiceParOffsetEalvl,
    nvPavsVoiceCurEcntEacount, nvPavsVoiceParStateEacur⟩

/-- `clampf` -/
def clampf (v min max : ℚ) : ℚ :=
  if v < min then min else if v > max then max else v

/-- The base of the decay curve, the `float` literal `0.99988799f`. -/
def decayBase : ℚ := 99988799 / 100000000

/-- The level `DECAY` computes: `255 * powf(0.99988799f, x)` with the
    exponent `x = (decay_rate * 16 - count) * 4096 / decay_rate` in `int`
    arithmetic, and 0 for a zero rate. -/
def decayLevel (powf : ℚ → ℚ → ℚ) (decayRate count : UInt16) : ℚ :=
  if decayRate = 0 then 0
  else 255 * powf decayBase
    (Int.tdiv (((decayRate.toNat : Int) * 16 - count.toNat) * 4096) decayRate.toNat)

/-- `M_E`, to the digits of the `double` constant. -/
def mE : ℚ := 2718281828459045 / 1000000000000000

/-- A `float` level stored into a `uint32_t` field (truncated; the levels
    stored are never negative). -/
def levelToUInt32 (value : ℚ) : UInt32 := (⌊value⌋₊).toUInt32

/-- `voice_step_envelope`: one frame of envelope `e` of voice `v`.  The
    result is the envelope's value, `value / 255.0f` in the source. -/
def voiceStepEnvelope (powf : ℚ → ℚ → ℚ) (st : ApuVoices) (v : Nat) (e : EnvelopeRegs) :
    Except VpAbort (ℚ × ApuVoices) :=
  let cur : UInt8 := (voiceGetMask st v nvPavsVoiceParState e.curMask).toUInt8
  let count : UInt16 := (voiceGetMask st v nvPavsVoiceCurEcnt e.countMask).toUInt16
  -- `cur++` followed by the write of `cur`
  let advance (st : ApuVoices) := voiceSetMask st v nvPavsVoiceParState e.curMask (cur + 1).toUInt32
  let setCount (st : ApuVoices) (count : UInt16) :=
    voiceSetMask st v nvPavsVoiceCurEcnt e.countMask count.toUInt32
  match EnvPhase.ofNat? cur.toNat with
  | some .off =>
    let st := voiceSetMask st v nvPavsVoiceCurEcnt e.countMask 0
    .ok (1, voiceSetMask st v e.lvlReg e.lvlMask 0xFF)
  | some .delay =>
    let st := voiceSetMask st v e.lvlReg e.lvlMask 0x00
    if count = 0 then .ok (0, setCount (advance st) 0)
    else .ok (0, setCount st (count - 1))
  | some .attack =>
    let attackRate : UInt16 := (voiceGetMask st v e.reg0 nvPavsVoiceCfgEnv0EaAttackrate).toUInt16
    let value : ℚ :=
      if attackRate = 0 then 255
      else if count.toNat ≤ attackRate.toNat * 16 then
        ((count.toNat * 0xFF / (attackRate.toNat * 16) : Nat) : ℚ)
      else 255
    let st := voiceSetMask st v e.lvlReg e.lvlMask (levelToUInt32 value)
    if count.toNat = attackRate.toNat * 16 then
      let st := advance st
      let holdTime : UInt16 := (voiceGetMask st v e.regA nvPavsVoiceCfgEnvaEaHoldtime).toUInt16
      .ok (value / 255, setCount st (holdTime * 16))
    else .ok (value / 255, setCount st (count + 1))
  | some .hold =>
    let st := voiceSetMask st v e.lvlReg e.lvlMask 0xFF
    if count = 0 then
      let st := advance st
      let decayRate : UInt16 := (voiceGetMask st v e.regA nvPavsVoiceCfgEnvaEaDecayrate).toUInt16
      .ok (1, setCount st (decayRate * 16))
    else .ok (1, setCount st (count - 1))
  | some .decay =>
    let decayRate : UInt16 := (voiceGetMask st v e.regA nvPavsVoiceCfgEnvaEaDecayrate).toUInt16
    let sustainLevel : UInt8 :=
      (voiceGetMask st v e.regA nvPavsVoiceCfgEnvaEaSustainlevel).toUInt8
    let value := decayLevel powf decayRate count
    if value ≤ (sustainLevel.toNat : ℚ) + 1 / 5 ∨ value > 255 then .ok (value / 255, advance st)
    else
      let st := setCount st (count - 1)
      .ok (value / 255, voiceSetMask st v e.lvlReg e.lvlMask (levelToUInt32 value))
  | some .sustain =>
    let sustainLevel : UInt8 :=
      (voiceGetMask st v e.regA nvPavsVoiceCfgEnvaEaSustainlevel).toUInt8
    let st := voiceSetMask st v nvPavsVoiceCurEcnt e.countMask 0x00
    .ok ((sustainLevel.toNat : ℚ) / 255,
      voiceSetMask st v e.lvlReg e.lvlMask sustainLevel.toUInt32)
  | some .release =>
    let releaseRate : UInt16 := (voiceGetMask st v e.rrReg e.rrMask).toUInt16
    let count : UInt16 := if releaseRate = 0 then 0 else count
    if count = 0 then .ok (0, advance st)
    else
      let pos := clampf (1 - (count.toNat : ℚ) / (releaseRate.toNat * 16)) 0 1
      let lvl : UInt8 := (voiceGetMask st v e.lvlReg e.lvlMask).toUInt8
      let value := powf mE (-691 / 100 * pos) * lvl.toNat
      .ok (value / 255, setCount st (count - 1))
  | some .forceRelease =>
    .ok (0, if e.countMask = nvPavsVoiceCurEcntEacount then voiceOff st v else st)
  | none => .error .unknownEnvelopeState

/-- The envelope part of `voice_process` for voice `v`: nothing for a paused
    voice; otherwise the filter envelope, then the amplitude envelope, each
    value asserted to lie in `[0, 1]`. -/
def voiceProcessEnvelopes (powf : ℚ → ℚ → ℚ) (st : ApuVoices) (v : Nat) :
    Except VpAbort (ApuVoices × Option (ℚ × ℚ)) :=
  if v ≥ mcpxHwMaxVoices then .error .voiceHandle else
  if voiceGetMask st v nvPavsVoiceParState nvPavsVoiceParStatePaused ≠ 0 then .ok (st, none) else
  match voiceStepEnvelope powf st v efEnvelope with
  | .error e => .error e
  | .ok (efValue, st) =>
    if ¬(0 ≤ efValue ∧ efValue ≤ 1) then .error .envelopeValue else
    match voiceStepEnvelope powf st v eaEnvelope with
    | .error e => .error e
    | .ok (eaValue, st) =>
      if ¬(0 ≤ eaValue ∧ eaValue ≤ 1) then .error .envelopeValue else
      .ok (st, some (efValue, eaValue))

/-! ## Section 4: The phases stay named

    Every write a step or a method makes is one `voiceSetMask`, so one lemma
    (`PhasesKnown.setMask`) says which writes keep the phase fields in
    range; each step lemma below checks its writes against it. -/

/-- Both envelopes of every voice are in one of the eight named phases. -/
def PhasesKnown (st : ApuVoices) : Prop :=
  ∀ v, (voiceGetMask st v nvPavsVoiceParState nvPavsVoiceParStateEfcur).toNat ≤ 7 ∧
    (voiceGetMask st v nvPavsVoiceParState nvPavsVoiceParStateEacur).toNat ≤ 7

/-- A write that keeps both phase fields in range: to another word, to bits
    outside both fields, or of a named phase into a phase field. -/
def PhaseSafeWrite (o : Nat) (m x : UInt32) : Prop :=
  o ≠ nvPavsVoiceParState ∨
    (m &&& nvPavsVoiceParStateEfcur = 0 ∧ m &&& nvPavsVoiceParStateEacur = 0) ∨
    ((m = nvPavsVoiceParStateEfcur ∨ m = nvPavsVoiceParStateEacur) ∧ x.toNat ≤ 7)

/-- A 4-bit value written into a phase field reads back as itself. -/
theorem getMask_shiftLeft_phase (x : UInt32) (hx : x.toNat < 16) :
    getMask (x <<< ctz32 nvPavsVoiceParStateEfcur) nvPavsVoiceParStateEfcur = x ∧
      getMask (x <<< ctz32 nvPavsVoiceParStateEacur) nvPavsVoiceParStateEacur = x := by
  obtain ⟨k, rfl⟩ : ∃ k : Fin 16, x = UInt32.ofNat k := ⟨⟨x.toNat, hx⟩, by simp⟩
  revert k
  decide

theorem PhasesKnown.with_regs {st : ApuVoices} (hk : PhasesKnown st) (r : Nat → UInt32) :
    PhasesKnown { st with regs := r } := hk

theorem PhasesKnown.setMask {st : ApuVoices} (hk : PhasesKnown st) {o : Nat} {m x : UInt32}
    (hw : PhaseSafeWrite o m x) (v : Nat) : PhasesKnown (voiceSetMask st v o m x) := by
  intro w
  simp only [voiceGetMask_voiceSetMask]
  split_ifs with h
  · obtain ⟨rfl, rfl⟩ := h
    rcases hw with ho | ⟨hef, hea⟩ | ⟨hm | hm, hx⟩
    · exact absurd rfl ho
    · rw [getMask_setMask_of_disjoint hef, getMask_setMask_of_disjoint hea]
      exact hk w
    · subst hm
      rw [getMask_setMask_self, (getMask_shiftLeft_phase x (by omega)).1,
        getMask_setMask_of_disjoint (by decide)]
      exact ⟨hx, (hk w).2⟩
    · subst hm
      rw [getMask_setMask_self, (getMask_shiftLeft_phase x (by omega)).2,
        getMask_setMask_of_disjoint (by decide)]
      exact ⟨(hk w).1, hx⟩
  · exact hk w

theorem PhasesKnown.voiceOff {st : ApuVoices} (hk : PhasesKnown st) (v : Nat) :
    PhasesKnown (voiceOff st v) :=
  (hk.setMask (Or.inr (Or.inl (by decide))) v).with_regs _

/-- `cur++` from a phase below `FORCE_RELEASE` names a phase. -/
theorem advance_phase_le {cur : UInt8} {p : EnvPhase} (h : EnvPhase.ofNat? cur.toNat = some p)
    (hp : p ≠ .forceRelease) : (cur + 1).toUInt32.toNat ≤ 7 := by
  have hcur := EnvPhase.ofNat?_eq_some h
  have hlt : cur.toNat ≤ 6 := by cases p <;> simp_all [EnvPhase.val]
  simp only [UInt8.toNat_toUInt32, UInt8.toNat_add, UInt8.reduceToNat]
  omega

theorem voiceStepEnvelope_phasesKnown {powf : ℚ → ℚ → ℚ} {st st' : ApuVoices} {v : Nat}
    {e : EnvelopeRegs} {x : ℚ} (he : e = efEnvelope ∨ e = eaEnvelope) (hk : PhasesKnown st)
    (h : voiceStepEnvelope powf st v e = .ok (x, st')) : PhasesKnown st' := by
  unfold voiceStepEnvelope at h
  dsimp only at h
  repeat' split at h
  all_goals try (simp only [Except.ok.injEq, Prod.mk.injEq] at h; obtain ⟨-, rfl⟩ := h)
  all_goals try cases h
  -- each branch's state is a chain of writes: check each against `PhaseSafeWrite`
  all_goals rcases he with rfl | rfl
  all_goals repeat' (first
    | with_reducible exact hk
    | exact hk.voiceOff v
    | with_reducible apply PhasesKnown.setMask
    | exact Or.inl (by decide)
    | exact Or.inr (Or.inl (by decide))
    | exact Or.inr (Or.inr ⟨by decide, advance_phase_le ‹_› (by decide)⟩))

/-- The only abort of a step is its default branch, on a phase no case names. -/
theorem voiceStepEnvelope_error {powf : ℚ → ℚ → ℚ} {st : ApuVoices} {v : Nat}
    {e : EnvelopeRegs} {err : VpAbort} (h : voiceStepEnvelope powf st v e = .error err) :
    err = .unknownEnvelopeState ∧
      EnvPhase.ofNat? (voiceGetMask st v nvPavsVoiceParState e.curMask).toUInt8.toNat = none := by
  unfold voiceStepEnvelope at h
  dsimp only at h
  repeat' split at h
  all_goals cases h
  exact ⟨rfl, ‹_›⟩

theorem voiceStepEnvelope_ne_unknown (powf : ℚ → ℚ → ℚ) {st : ApuVoices} {e : EnvelopeRegs}
    (he : e = efEnvelope ∨ e = eaEnvelope) (hk : PhasesKnown st) (v : Nat) :
    voiceStepEnvelope powf st v e ≠ .error .unknownEnvelopeState := by
  intro h
  have hnone := (voiceStepEnvelope_error h).2
  -- the field is below 8, so `uint8_t cur` names a phase
  have hle : (voiceGetMask st v nvPavsVoiceParState e.curMask).toUInt8.toNat ≤ 7 := by
    rw [UInt32.toNat_toUInt8]
    rcases he with rfl | rfl
    · exact Nat.le_trans (Nat.mod_le _ _) (hk v).1
    · exact Nat.le_trans (Nat.mod_le _ _) (hk v).2
  have hsome := EnvPhase.ofNat?_isSome hle
  rw [hnone] at hsome
  exact absurd hsome (by decide)

theorem voiceOnEnvelope_phasesKnown {st : ApuVoices} (hk : PhasesKnown st) (h : Nat)
    {argument startMask curMask : UInt32} (countMask : UInt32) (delayReg holdReg : Nat)
    (hm : curMask = nvPavsVoiceParStateEfcur ∨ curMask = nvPavsVoiceParStateEacur)
    (hs : (getMask argument startMask).toNat ≤ 7) :
    PhasesKnown (voiceOnEnvelope st h argument startMask curMask countMask delayReg holdReg) := by
  have hcur : PhasesKnown
      (voiceSetMask st h nvPavsVoiceParState curMask (getMask argument startMask)) :=
    hk.setMask (Or.inr (Or.inr ⟨hm, hs⟩)) h
  unfold voiceOnEnvelope
  dsimp only
  split_ifs
  all_goals repeat' (first
    | with_reducible exact hcur
    | with_reducible apply PhasesKnown.setMask
    | exact Or.inl (by decide))

theorem voiceOn_phasesKnown {st st' : ApuVoices} {argument : UInt32} (hk : PhasesKnown st)
    (hs : (getMask argument nv1ba0PioVoiceOnEnva).toNat ≤ 7 ∧
      (getMask argument nv1ba0PioVoiceOnEnvf).toNat ≤ 7)
    (h : voiceOn st argument = .ok st') : PhasesKnown st' := by
  unfold voiceOn at h
  dsimp only at h
  split_ifs at h with hmax hlist hante
  all_goals split at h
  all_goals try cases h
  all_goals
    rename_i st₁ hlinked
    suffices hk₁ : PhasesKnown st₁ by
      apply PhasesKnown.setMask _ (Or.inr (Or.inl (by decide)))
      apply voiceOnEnvelope_phasesKnown _ _ _ _ _ (Or.inl rfl) hs.2
      apply voiceOnEnvelope_phasesKnown _ _ _ _ _ (Or.inr rfl) hs.1
      exact hk₁.setMask (Or.inl (by decide)) _
    cases hlinked
  -- at the top of a list: the link word and the list's top register
  · exact (hk.setMask (Or.inl (by decide)) _).with_regs _
  -- after the antecedent voice: the two link words
  · exact (hk.setMask (Or.inl (by decide)) _).setMask (Or.inl (by decide)) _

theorem voiceReleaseEnvelope_phasesKnown {st : ApuVoices} (hk : PhasesKnown st) (h rrReg : Nat)
    (rrMask : UInt32) {curMask : UInt32} (countMask : UInt32)
    (hm : curMask = nvPavsVoiceParStateEfcur ∨ curMask = nvPavsVoiceParStateEacur) :
    PhasesKnown (voiceReleaseEnvelope st h rrReg rrMask curMask countMask) :=
  (hk.setMask (Or.inl (by decide)) h).setMask (Or.inr (Or.inr ⟨hm, by decide⟩)) h

/-- The start phases `VOICE_ON` takes from its argument name phases. -/
def StartKnown (argument : UInt32) : Prop :=
  (getMask argument nv1ba0PioVoiceOnEnva).toNat ≤ 7 ∧
    (getMask argument nv1ba0PioVoiceOnEnvf).toNat ≤ 7

theorem feMethod_phasesKnown {st st' : ApuVoices} {m : FeMethod} {argument : UInt32}
    (hk : PhasesKnown st) (hs : m = .voiceOn → StartKnown argument)
    (h : feMethod st m argument = .ok st') : PhasesKnown st' := by
  cases m with
  | voiceOn => exact voiceOn_phasesKnown hk (hs rfl) h
  | voiceRelease =>
    unfold feMethod voiceRelease at h
    dsimp only at h
    split_ifs at h
    cases h
    exact voiceReleaseEnvelope_phasesKnown
      (voiceReleaseEnvelope_phasesKnown hk _ _ _ _ (Or.inr rfl)) _ _ _ _ (Or.inl rfl)
  | voiceOff => cases h; exact hk.voiceOff _
  | voicePause => cases h; exact hk.setMask (Or.inr (Or.inl (by decide))) _
  | setAntecedentVoice | setCurrentVoice => cases h; exact hk.with_regs _
  | setVoiceCfgEnv0 | setVoiceCfgEnva | setVoiceCfgEnv1 | setVoiceCfgEnvf | setVoiceCfgMisc
  | setVoiceLfoEnv => cases h; exact hk.setMask (Or.inl (by decide)) _

/-- The methods abort only on a voice handle or on the antecedent `0xFFFF`. -/
theorem feMethod_error {st : ApuVoices} {m : FeMethod} {argument : UInt32} {err : VpAbort}
    (h : feMethod st m argument = .error err) :
    err = .voiceHandle ∨ err = .antecedentVoice := by
  cases m <;> simp only [feMethod, reduceCtorEq] at h
  case voiceOn =>
    unfold voiceOn at h
    dsimp only at h
    split_ifs at h
    all_goals repeat' split at h
    all_goals cases h
    all_goals simp_all
  case voiceRelease =>
    unfold voiceRelease at h
    dsimp only at h
    split_ifs at h
    cases h
    exact .inl rfl

theorem voiceProcessEnvelopes_phasesKnown {powf : ℚ → ℚ → ℚ} {st st' : ApuVoices} {v : Nat}
    {r : Option (ℚ × ℚ)} (hk : PhasesKnown st)
    (h : voiceProcessEnvelopes powf st v = .ok (st', r)) : PhasesKnown st' := by
  unfold voiceProcessEnvelopes at h
  split_ifs at h
  · cases h; exact hk
  split at h
  · cases h
  rename_i hef
  split_ifs at h
  split at h
  · cases h
  rename_i hea
  split_ifs at h
  cases h
  exact voiceStepEnvelope_phasesKnown (.inr rfl) (voiceStepEnvelope_phasesKnown (.inl rfl) hk hef) hea

theorem voiceProcessEnvelopes_ne_unknown (powf : ℚ → ℚ → ℚ) {st : ApuVoices}
    (hk : PhasesKnown st) (v : Nat) :
    voiceProcessEnvelopes powf st v ≠ .error .unknownEnvelopeState := by
  intro h
  unfold voiceProcessEnvelopes at h
  split_ifs at h
  · cases h
  split at h
  · rename_i hef
    cases h
    exact voiceStepEnvelope_ne_unknown powf (.inl rfl) hk v hef
  rename_i hef
  split_ifs at h
  · split at h
    · rename_i hea
      cases h
      exact voiceStepEnvelope_ne_unknown powf (.inr rfl)
        (voiceStepEnvelope_phasesKnown (.inl rfl) hk hef) v hea
    · split_ifs at h
      cases h
  · cases h

/-! ## Section 5: Aborts and values -/

/-- `powf` as the decay curve needs it: for a base in `(0, 1)` the power is
    positive, and at most 1 exactly for a nonnegative exponent. -/
def PowfDecays (powf : ℚ → ℚ → ℚ) : Prop :=
  ∀ b x, 0 < b → b < 1 → 0 < powf b x ∧ (powf b x ≤ 1 ↔ 0 ≤ x)

/-- The exponent of the decay curve is negative exactly when the count is
    above sixteen times the rate, for a rate of at most 12 bits: `int`
    division truncates, but a negative numerator is at least 4096 below 0. -/
theorem decay_exponent_nonneg_iff (r c : Nat) (hr : 0 < r) (hr' : r < 4096) :
    0 ≤ Int.tdiv (((r : Int) * 16 - c) * 4096) r ↔ c ≤ 16 * r := by
  constructor
  · intro h
    by_contra hc
    push Not at hc
    obtain ⟨m, hm⟩ : ∃ m : Nat, ((r : Int) * 16 - c) * 4096 = -(m : Int) ∧ r ≤ m := by
      refine ⟨(c - 16 * r) * 4096, ?_, ?_⟩ <;> push_cast [Nat.cast_sub hc.le] <;> omega
    rw [hm.1, Int.neg_tdiv, ← Int.ofNat_tdiv] at h
    have : 1 ≤ m / r := (Nat.one_le_div_iff hr).mpr hm.2
    omega
  · intro hc
    apply Int.tdiv_nonneg _ (by omega)
    have : (c : Int) ≤ r * 16 := by omega
    nlinarith

/-- The decay level over 255 is never negative, and at most 1 exactly when
    the rate is zero or the count at most sixteen times the rate. -/
theorem decayLevel_bounds {powf : ℚ → ℚ → ℚ} (hpow : PowfDecays powf) (r c : UInt16)
    (hr : r.toNat < 4096) :
    0 ≤ decayLevel powf r c / 255 ∧
      (decayLevel powf r c / 255 ≤ 1 ↔ r = 0 ∨ c.toNat ≤ 16 * r.toNat) := by
  unfold decayLevel
  split_ifs with h0
  · simp [h0]
  · have hr0 : 0 < r.toNat := by
      rcases Nat.eq_zero_or_pos r.toNat with h | h
      · exact absurd (UInt16.toNat_inj.mp h) h0
      · exact h
    obtain ⟨hpos, hle⟩ := hpow decayBase _ (by norm_num [decayBase]) (by norm_num [decayBase])
    rw [mul_div_cancel_left₀ _ (by norm_num : (255 : ℚ) ≠ 0)]
    refine ⟨hpos.le, ?_⟩
    rw [hle, Int.cast_nonneg_iff, decay_exponent_nonneg_iff _ _ hr0 hr]
    simp [h0]

/-- A `DECAY` step returns, with a value that is never negative and at most
    1 exactly when the decay rate is zero or the count at most sixteen times
    the rate.  `HOLD` loads the count with sixteen times the rate, but
    `SET_VOICE_CFG_ENVA` may lower the rate in mid-phase, and `VOICE_ON`
    may start `DECAY` with the count as it was: the value then exceeds 1
    and `voice_process`'s assert fails. -/
theorem voiceStepEnvelope_decay {powf : ℚ → ℚ → ℚ} (hpow : PowfDecays powf) (st : ApuVoices)
    (v : Nat) (e : EnvelopeRegs)
    (hphase : voiceGetMask st v nvPavsVoiceParState e.curMask = EnvPhase.decay.val) :
    ∃ x st', voiceStepEnvelope powf st v e = .ok (x, st') ∧ 0 ≤ x ∧
      (x ≤ 1 ↔ (voiceGetMask st v e.regA nvPavsVoiceCfgEnvaEaDecayrate).toUInt16 = 0 ∨
        (voiceGetMask st v nvPavsVoiceCurEcnt e.countMask).toUInt16.toNat ≤
          16 * (voiceGetMask st v e.regA nvPavsVoiceCfgEnvaEaDecayrate).toUInt16.toNat) := by
  have hcur := EnvPhase.ofNat?_val_toUInt8 hphase
  -- the rate is a 12-bit field
  have hrate : (voiceGetMask st v e.regA nvPavsVoiceCfgEnvaEaDecayrate).toUInt16.toNat < 4096 := by
    have := getMask_toNat_le (st.voices v e.regA) nvPavsVoiceCfgEnvaEaDecayrate
    rw [UInt32.toNat_toUInt16]
    have hm : (getMask nvPavsVoiceCfgEnvaEaDecayrate nvPavsVoiceCfgEnvaEaDecayrate).toNat = 4095 := by
      decide
    unfold voiceGetMask
    omega
  obtain ⟨h0, h1⟩ := decayLevel_bounds hpow _
    (voiceGetMask st v nvPavsVoiceCurEcnt e.countMask).toUInt16 hrate
  unfold voiceStepEnvelope
  dsimp only
  rw [hcur]
  dsimp only
  -- both outcomes of the sustain test return `value / 255`
  split_ifs
  · exact ⟨_, _, rfl, h0, h1⟩
  · exact ⟨_, _, rfl, h0, h1⟩

/-- An `OFF` step clears the count, sets the level to `0xFF` and returns 1. -/
theorem voiceStepEnvelope_off (powf : ℚ → ℚ → ℚ) (st : ApuVoices) (v : Nat) (e : EnvelopeRegs)
    (hphase : voiceGetMask st v nvPavsVoiceParState e.curMask = EnvPhase.off.val) :
    voiceStepEnvelope powf st v e =
      .ok (1, voiceSetMask (voiceSetMask st v nvPavsVoiceCurEcnt e.countMask 0) v e.lvlReg
        e.lvlMask 0xFF) := by
  unfold voiceStepEnvelope
  dsimp only
  rw [EnvPhase.ofNat?_val_toUInt8 hphase]

end Xemu.Apu
