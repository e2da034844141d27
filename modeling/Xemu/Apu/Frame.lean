import Mathlib
import Xemu.Apu.Envelope
import Xemu.Apu.VoiceWork

/-! # The frame of the voice processor

    Model of `mcpx_apu_vp_frame` in `hw/xbox/mcpx/apu/vp/vp.c`, as far as
    the voice records go.  A frame walks the three voice lists, 2D, 3D and
    multipass: the top register `TVL*` of a list holds its first voice, the
    field `NEXT_VOICE_HANDLE` of each voice's `TAR_PITCH_LINK` the next one,
    and `0xFFFF` ends a list.  The walk queues every active voice for the
    workers (`voice_work_enqueue`, which also takes the voice's lock until
    the frame ends) and reports every inactive one to the front end
    (`SE2FE_IDLE_VOICE`), which traps when `FETFORCE1` asks for it and
    aborts otherwise.  Then `voice_work_dispatch` hands the queue out to
    the workers under the three asserts of `voice_work_schedule`, and the
    workers run `voice_process` for their voices.  A run of the voice
    processor (`voiceRun`) is a sequence of front-end methods and frames.

    The workers run in parallel, each on its own voices, and
    `voice_process` writes the record of its voice only, so running the
    queue in order is one of the interleavings and ends in the same voice
    records; where several voices fail an assert, the model reports the
    first in queue order.  What a frame reads besides the registers and the
    voice records, the number of workers and `d->vp.hrtf_submix`, is fixed
    along a run (`VpConfig`): no modelled method writes it.

    The results:
    * the walk writes only its own registers (`vpFrameLists_walkFrame`), so
      a frame changes the voice records only through `voice_process`;
    * along every run whose `VOICE_ON`s name known start phases, no
      envelope step reaches the default branch of `voice_step_envelope`
      (`voiceRun_ne_unknownEnvelopeState`);
    * `VOICE_ON` copies its start phases unchecked, so on an APU whose lists
      are empty, a `VOICE_ON` with amplitude start phase 8 makes the next
      frame queue the voice and abort in that branch
      (`voice_on_phase_eight_aborts`).

    Not modelled: what `voice_process` does besides the envelopes, the
    mixing into the bins, the wait for a voice locked by `VOICE_LOCK`, and
    what `d->set_irq` does to the interrupt line.
-/

namespace Xemu.Apu

open Function Xemu.Word

/-! ## Section 1: Registers -/

/-- `NV_PAPU_CVL2D` -/
abbrev nvPapuCvl2d : Nat := 0x2058
/-- `NV_PAPU_NVL2D` -/
abbrev nvPapuNvl2d : Nat := 0x205C
/-- `NV_PAPU_CVL3D` -/
abbrev nvPapuCvl3d : Nat := 0x2064
/-- `NV_PAPU_NVL3D` -/
abbrev nvPapuNvl3d : Nat := 0x2068
/-- `NV_PAPU_CVLMP` -/
abbrev nvPapuCvlmp : Nat := 0x2070
/-- `NV_PAPU_NVLMP` -/
abbrev nvPapuNvlmp : Nat := 0x2074
/-- `NV_PAPU_FECTL` -/
abbrev nvPapuFectl : Nat := 0x1100
/-- `NV_PAPU_FECTL_FEMETHMODE` -/
abbrev nvPapuFectlFemethmode : UInt32 := 0x000000E0
/-- `NV_PAPU_FECTL_FEMETHMODE_TRAPPED` -/
abbrev nvPapuFectlFemethmodeTrapped : UInt32 := 0x000000E0
/-- `NV_PAPU_FECTL_FETRAPREASON` -/
abbrev nvPapuFectlFetrapreason : UInt32 := 0x00000F00
/-- `NV_PAPU_FECTL_FETRAPREASON_REQUESTED` -/
abbrev nvPapuFectlFetrapreasonRequested : UInt32 := 0x00000F00
/-- `NV_PAPU_FETFORCE1` -/
abbrev nvPapuFetforce1 : Nat := 0x1504
/-- `NV_PAPU_FETFORCE1_SE2FE_IDLE_VOICE` -/
abbrev nvPapuFetforce1Se2feIdleVoice : UInt32 := (1 : UInt32) <<< 15

/-- The instance behind the `Fin 3` literals, named here so that no
    definition carries a proof of its own. -/
theorem neZero_three : NeZero 3 := ⟨by decide⟩

attribute [local instance] neZero_three

/-- An entry of `voice_list_regs`: the top, current and next registers of
    one list. -/
structure VoiceListRegs where
  top : Nat
  current : Nat
  next : Nat

/-- `voice_list_regs`: the 2D, 3D and multipass lists, in the order the
    frame walks them. -/
def voiceListRegs : Fin 3 → VoiceListRegs :=
  ![⟨nvPapuTvl2d, nvPapuCvl2d, nvPapuNvl2d⟩, ⟨nvPapuTvl3d, nvPapuCvl3d, nvPapuNvl3d⟩,
    ⟨nvPapuTvlmp, nvPapuCvlmp, nvPapuNvlmp⟩]

/-- The list `FEAV_LST` names, `list - 1` in `voice_list_regs[list - 1]`;
    `voiceListTop` reads the same table. -/
def voiceListIndex (list : UInt32) : Fin 3 :=
  if list = 1 then 0 else if list = 2 then 1 else 2

/-! ## Section 2: The frame's walk of the lists -/

/-- What the walk changes: the registers and voices, the queue of
    `voice_work_enqueue`, and `d->set_irq`.  The voices whose locks the
    walk holds are those of the queue. -/
structure FrameState where
  apu : ApuVoices
  /-- `queue` up to `queue_len` -/
  queue : List VoiceWorkItem
  setIrq : Bool

/-- How the walk stops short. -/
inductive FrameAbort
  /-- `fe_method`'s `assert(false)` on `SE2FE_IDLE_VOICE` for voice
      `voice`, when `FETFORCE1` does not ask for the trap -/
  | idleVoice (voice : Nat)
  /-- `assert(vwd->queue_len < ARRAY_SIZE(vwd->queue))` -/
  | queueFull
  /-- `is_voice_locked`'s `assert(v < MCPX_HW_MAX_VOICES)` -/
  | voiceHandle
  /-- `qemu_spin_lock` on the lock of a voice the walk already queued: the
      walk holds it until the dispatch, so the call never returns -/
  | selfDeadlock
  deriving DecidableEq, Repr

/-- `fe_method(d, SE2FE_IDLE_VOICE, v)`: trap the front end if `FETFORCE1`
    asks for it. -/
def se2feIdleVoice (s : FrameState) (v : Nat) : Except FrameAbort FrameState :=
  if s.apu.regs nvPapuFetforce1 &&& nvPapuFetforce1Se2feIdleVoice ≠ 0 then
    let fectl := s.apu.regs nvPapuFectl
    let fectl := (fectl &&& ~~~nvPapuFectlFemethmode) ||| nvPapuFectlFemethmodeTrapped
    let fectl := (fectl &&& ~~~nvPapuFectlFetrapreason) ||| nvPapuFectlFetrapreasonRequested
    .ok { s with apu := { s.apu with regs := update s.apu.regs nvPapuFectl fectl }, setIrq := true }
  else .error (.idleVoice v)

/-- `voice_work_enqueue`: the voice joins the queue, and
    `voice_work_acquire_voice_lock_for_processing` takes its lock. -/
def voiceWorkEnqueue (s : FrameState) (v list : Nat) : Except FrameAbort FrameState :=
  if s.queue.length < mcpxHwMaxVoices then
    if v ∈ s.queue.map VoiceWorkItem.voice then .error .selfDeadlock
    else if v < mcpxHwMaxVoices then .ok { s with queue := s.queue ++ [⟨v, list⟩] }
    else .error .voiceHandle
  else .error .queueFull

/-- A voice the walk reaches: inactive ones go to the front end, active ones
    to the queue. -/
def vpFrameVisit (s : FrameState) (v list : Nat) : Except FrameAbort FrameState :=
  if voiceGetMask s.apu v nvPavsVoiceParState nvPavsVoiceParStateActiveVoice = 0 then
    se2feIdleVoice s v
  else voiceWorkEnqueue s v list

/-- The loop of `mcpx_apu_vp_frame` over one list with `fuel` iterations
    left of its `MCPX_HW_MAX_VOICES`. -/
def vpFrameListLoop (list : Nat) (r : VoiceListRegs) : Nat → FrameState → Except FrameAbort FrameState
  | 0, s => .ok s
  | fuel + 1, s =>
    if s.apu.regs r.current = 0xFFFF then .ok s
    else
      let v := (s.apu.regs r.current).toUInt16.toNat
      let next := voiceGetMask s.apu v nvPavsVoiceTarPitchLink nvPavsVoiceTarPitchLinkNextVoiceHandle
      let s := { s with apu := { s.apu with regs := update s.apu.regs r.next next } }
      match vpFrameVisit s v list with
      | .error e => .error e
      | .ok s => vpFrameListLoop list r fuel
          { s with apu := { s.apu with regs := update s.apu.regs r.current (s.apu.regs r.next) } }

/-- The walk of list `k`, from its top. -/
def vpFrameList (s : FrameState) (k : Fin 3) : Except FrameAbort FrameState :=
  let r := voiceListRegs k
  vpFrameListLoop k r mcpxHwMaxVoices
    { s with apu := { s.apu with regs := update s.apu.regs r.current (s.apu.regs r.top) } }

/-- The walk of `mcpx_apu_vp_frame` over the three lists, up to the
    dispatch. -/
def vpFrameLists (s : FrameState) : Except FrameAbort FrameState :=
  (List.finRange 3).foldlM vpFrameList s

/-- The registers the walk writes: the current and next registers of the
    lists, and `FECTL`. -/
def walkRegs : List Nat :=
  [nvPapuCvl2d, nvPapuNvl2d, nvPapuCvl3d, nvPapuNvl3d, nvPapuCvlmp, nvPapuNvlmp, nvPapuFectl]

/-- `st'` differs from `st` in the walk's registers at most. -/
structure WalkFrame (st st' : ApuVoices) : Prop where
  voices : st'.voices = st.voices
  regs : ∀ r ∉ walkRegs, st'.regs r = st.regs r

/-! ## Section 3: The dispatch and the run -/

/-- The two words of voice `v` that `get_voice_bin_src_dst` reads. -/
def voiceBinRegs (st : ApuVoices) (v : Nat) : VoiceBinRegs :=
  ⟨st.voices v nvPavsVoiceCfgVbin, st.voices v nvPavsVoiceCfgFmt⟩

/-- What a frame reads besides the registers and the voice records. -/
structure VpConfig where
  /-- `vwd->num_workers` -/
  numWorkers : Nat
  /-- `d->vp.hrtf_submix` -/
  hrtfSubmix : Fin 4 → UInt32

/-- Why a run of the voice processor stops. -/
inductive ApuAbort
  /-- an assert of `fe_method` or of `voice_process` -/
  | vp (e : VpAbort)
  /-- the walk of the lists stops -/
  | frame (e : FrameAbort)
  /-- one of the asserts of `voice_work_schedule` on the mix bins -/
  | schedule
  deriving DecidableEq, Repr

/-- The workers' calls of `voice_process` for the queued voices, in queue
    order. -/
def voiceWorkProcess (powf : ℚ → ℚ → ℚ) (st : ApuVoices) : List VoiceWorkItem → Except VpAbort ApuVoices
  | [] => .ok st
  | item :: queue =>
    match voiceProcessEnvelopes powf st item.voice with
    | .error e => .error e
    | .ok (st, _) => voiceWorkProcess powf st queue

/-- `voice_work_dispatch`: nothing for an empty queue; otherwise the
    schedule, whose asserts read the voices' bins, and the workers. -/
def voiceWorkDispatch (powf : ℚ → ℚ → ℚ) (cfg : VpConfig) (st : ApuVoices)
    (queue : List VoiceWorkItem) : Except ApuAbort ApuVoices :=
  if queue = [] then .ok st
  else
    match voiceWorkSchedule cfg.numWorkers cfg.hrtfSubmix (voiceBinRegs st) queue with
    | none => .error .schedule
    | some _ =>
      match voiceWorkProcess powf st queue with
      | .error e => .error (.vp e)
      | .ok st => .ok st

/-- `mcpx_apu_vp_frame`: the walk from an empty queue, then the dispatch,
    after which the locks are released and the queue emptied. -/
def mcpxApuVpFrame (powf : ℚ → ℚ → ℚ) (cfg : VpConfig) (st : ApuVoices) : Except ApuAbort ApuVoices :=
  match vpFrameLists ⟨st, [], false⟩ with
  | .error e => .error (.frame e)
  | .ok s => voiceWorkDispatch powf cfg s.apu s.queue

/-- What happens to the voices: a front-end method, or a frame. -/
inductive VoiceEvent
  | method (m : FeMethod) (argument : UInt32)
  | frame

/-- A run of events from state `st`; the first failed assert ends it. -/
def voiceRun (powf : ℚ → ℚ → ℚ) (cfg : VpConfig) (st : ApuVoices) :
    List VoiceEvent → Except ApuAbort ApuVoices
  | [] => .ok st
  | .method m argument :: evs =>
    match feMethod st m argument with
    | .error e => .error (.vp e)
    | .ok st => voiceRun powf cfg st evs
  | .frame :: evs =>
    match mcpxApuVpFrame powf cfg st with
    | .error e => .error e
    | .ok st => voiceRun powf cfg st evs

section walk

variable {st st₁ st' : ApuVoices}

theorem WalkFrame.refl (st : ApuVoices) : WalkFrame st st := ⟨rfl, fun _ _ => rfl⟩

theorem WalkFrame.trans (h₁ : WalkFrame st st₁) (h₂ : WalkFrame st₁ st') : WalkFrame st st' :=
  ⟨h₂.voices.trans h₁.voices, fun r hr => (h₂.regs r hr).trans (h₁.regs r hr)⟩

theorem WalkFrame.setReg (h : WalkFrame st st₁) {r : Nat} (hr : r ∈ walkRegs) (x : UInt32) :
    WalkFrame st { st₁ with regs := update st₁.regs r x } :=
  ⟨h.voices, fun r' hr' => (update_of_ne (by rintro rfl; exact hr' hr) _ _).trans (h.regs r' hr')⟩

theorem current_mem_walkRegs (k : Fin 3) : (voiceListRegs k).current ∈ walkRegs := by
  revert k
  decide

theorem next_mem_walkRegs (k : Fin 3) : (voiceListRegs k).next ∈ walkRegs := by
  revert k
  decide

/-- A visit writes `FECTL` at most. -/
theorem vpFrameVisit_walkFrame {s s' : FrameState} {v list : Nat} (h : vpFrameVisit s v list = .ok s') :
    WalkFrame s.apu s'.apu := by
  unfold vpFrameVisit at h
  split_ifs at h
  · -- an inactive voice: the front end traps, writing `FECTL`
    unfold se2feIdleVoice at h
    split_ifs at h
    cases h
    exact (WalkFrame.refl _).setReg (by decide) _
  · -- an active voice joins the queue
    unfold voiceWorkEnqueue at h
    split_ifs at h
    cases h
    exact WalkFrame.refl _

/-- The loop over list `k`: induction on the iterations left, one visit
    and the two pointer writes each. -/
theorem vpFrameListLoop_walkFrame (k : Fin 3) :
    ∀ (fuel : Nat) {s s' : FrameState}, vpFrameListLoop k (voiceListRegs k) fuel s = .ok s' →
      WalkFrame s.apu s'.apu
  | 0, _, _, h => by
    cases h
    exact WalkFrame.refl _
  | fuel + 1, s, s', h => by
    rw [vpFrameListLoop] at h
    split_ifs at h
    · cases h
      exact WalkFrame.refl _
    · dsimp only at h
      split at h
      · cases h
      rename_i s₁ hvisit
      -- `d->regs[next]`, the visit, then `d->regs[current]`
      have hw₁ := ((WalkFrame.refl s.apu).setReg (next_mem_walkRegs k) _).trans (vpFrameVisit_walkFrame hvisit)
      exact (hw₁.setReg (current_mem_walkRegs k) _).trans (vpFrameListLoop_walkFrame k fuel h)

theorem vpFrameList_walkFrame {s s' : FrameState} {k : Fin 3} (h : vpFrameList s k = .ok s') :
    WalkFrame s.apu s'.apu :=
  ((WalkFrame.refl _).setReg (current_mem_walkRegs k) _).trans (vpFrameListLoop_walkFrame k _ h)

/-- The walk of the three lists writes only the walk's registers. -/
theorem vpFrameLists_walkFrame {s s' : FrameState} (h : vpFrameLists s = .ok s') :
    WalkFrame s.apu s'.apu := by
  unfold vpFrameLists at h
  generalize List.finRange 3 = ks at h
  induction ks generalizing s with
  | nil =>
    cases h
    exact WalkFrame.refl _
  | cons k ks ih =>
    rw [List.foldlM_cons] at h
    cases hk : vpFrameList s k with
    | error e =>
      rw [hk] at h
      cases h
    | ok s₁ =>
      rw [hk] at h
      exact (vpFrameList_walkFrame hk).trans (ih h)

end walk

/-! ## Section 5: The phases stay named over runs -/

/-- The phases are fields of the voice records. -/
theorem PhasesKnown.of_voices {st st' : ApuVoices} (hk : PhasesKnown st) (h : st'.voices = st.voices) :
    PhasesKnown st' := by
  intro v
  unfold voiceGetMask
  rw [h]
  exact hk v

/-- The workers keep the phases named: induction on the queue, one
    `voice_process` at a time. -/
theorem voiceWorkProcess_phasesKnown {powf : ℚ → ℚ → ℚ} :
    ∀ {queue : List VoiceWorkItem} {st st' : ApuVoices}, PhasesKnown st →
      voiceWorkProcess powf st queue = .ok st' → PhasesKnown st'
  | [], _, _, hk, h => by
    cases h
    exact hk
  | item :: queue, st, st', hk, h => by
    rw [voiceWorkProcess] at h
    split at h
    · cases h
    · rename_i st₁ r h₁
      exact voiceWorkProcess_phasesKnown (voiceProcessEnvelopes_phasesKnown hk h₁) h

theorem voiceWorkProcess_ne_unknown (powf : ℚ → ℚ → ℚ) :
    ∀ {queue : List VoiceWorkItem} {st : ApuVoices}, PhasesKnown st →
      voiceWorkProcess powf st queue ≠ .error .unknownEnvelopeState
  | [], _, _ => by simp [voiceWorkProcess]
  | item :: queue, st, hk => by
    rw [voiceWorkProcess]
    split
    · rename_i err h₁
      rintro ⟨⟩
      exact voiceProcessEnvelopes_ne_unknown powf hk item.voice h₁
    · rename_i st₁ r h₁
      exact voiceWorkProcess_ne_unknown powf (voiceProcessEnvelopes_phasesKnown hk h₁)

/-- What a frame that goes through did: the walk, then the workers on
    the walk's queue (nothing, for an empty one). -/
theorem mcpxApuVpFrame_ok {powf : ℚ → ℚ → ℚ} {cfg : VpConfig} {st st' : ApuVoices}
    (h : mcpxApuVpFrame powf cfg st = .ok st') :
    ∃ s, vpFrameLists ⟨st, [], false⟩ = .ok s ∧ voiceWorkProcess powf s.apu s.queue = .ok st' := by
  unfold mcpxApuVpFrame at h
  split at h
  · cases h
  rename_i s hwalk
  refine ⟨s, hwalk, ?_⟩
  unfold voiceWorkDispatch at h
  split_ifs at h with hq
  · cases h
    rw [hq]
    rfl
  · split at h
    · cases h
    · split at h
      · cases h
      · cases h
        assumption

/-- A frame that fails an assert of `voice_process` got through the walk,
    and a worker failed it. -/
theorem mcpxApuVpFrame_error_vp {powf : ℚ → ℚ → ℚ} {cfg : VpConfig} {st : ApuVoices} {e : VpAbort}
    (h : mcpxApuVpFrame powf cfg st = .error (.vp e)) :
    ∃ s, vpFrameLists ⟨st, [], false⟩ = .ok s ∧ voiceWorkProcess powf s.apu s.queue = .error e := by
  unfold mcpxApuVpFrame at h
  split at h
  · cases h
  rename_i s hwalk
  refine ⟨s, hwalk, ?_⟩
  unfold voiceWorkDispatch at h
  -- an empty queue goes through, so the schedule and a worker ran
  split_ifs at h
  split at h
  · cases h
  · split at h
    · cases h
      assumption
    · cases h

/-- A frame keeps the phases named: the walk leaves the voice records
    alone, and the workers step the envelopes. -/
theorem mcpxApuVpFrame_phasesKnown {powf : ℚ → ℚ → ℚ} {cfg : VpConfig} {st st' : ApuVoices}
    (hk : PhasesKnown st) (h : mcpxApuVpFrame powf cfg st = .ok st') : PhasesKnown st' := by
  obtain ⟨s, hwalk, hwork⟩ := mcpxApuVpFrame_ok h
  exact voiceWorkProcess_phasesKnown (hk.of_voices (vpFrameLists_walkFrame hwalk).voices) hwork

theorem mcpxApuVpFrame_ne_unknown (powf : ℚ → ℚ → ℚ) (cfg : VpConfig) {st : ApuVoices}
    (hk : PhasesKnown st) : mcpxApuVpFrame powf cfg st ≠ .error (.vp .unknownEnvelopeState) := by
  intro h
  obtain ⟨s, hwalk, hwork⟩ := mcpxApuVpFrame_error_vp h
  exact voiceWorkProcess_ne_unknown powf (hk.of_voices (vpFrameLists_walkFrame hwalk).voices) hwork

/-- Every `VOICE_ON` of a list of events names known start phases. -/
def StartsKnown (evs : List VoiceEvent) : Prop :=
  ∀ argument, VoiceEvent.method .voiceOn argument ∈ evs → StartKnown argument

theorem StartsKnown.tail {ev : VoiceEvent} {evs : List VoiceEvent}
    (hs : StartsKnown (ev :: evs)) : StartsKnown evs :=
  fun a ha => hs a (List.mem_cons_of_mem _ ha)

/-- Along a run whose `VOICE_ON`s name known phases, no envelope step
    reaches the default branch of `voice_step_envelope`: induction on the
    run, with `PhasesKnown` as the invariant that each method and each
    frame keeps. -/
theorem voiceRun_ne_unknownEnvelopeState (powf : ℚ → ℚ → ℚ) (cfg : VpConfig) {st : ApuVoices}
    {evs : List VoiceEvent} (hk : PhasesKnown st) (hs : StartsKnown evs) :
    voiceRun powf cfg st evs ≠ .error (.vp .unknownEnvelopeState) := by
  induction evs generalizing st with
  | nil => simp [voiceRun]
  | cons ev evs ih =>
    cases ev with
    | method m argument =>
      simp only [voiceRun]
      split
      · rename_i err h₁
        rcases feMethod_error h₁ with rfl | rfl <;> simp
      · rename_i st₁ h₁
        have hs₁ : m = .voiceOn → StartKnown argument := by
          rintro rfl
          exact hs argument List.mem_cons_self
        exact ih (feMethod_phasesKnown hk hs₁ h₁) hs.tail
    | frame =>
      simp only [voiceRun]
      split
      · rename_i err h₁
        rw [← h₁]
        exact mcpxApuVpFrame_ne_unknown powf cfg hk
      · rename_i st₁ h₁
        exact ih (mcpxApuVpFrame_phasesKnown hk h₁) hs.tail

/-! ## Section 6: A start phase no case names -/

end Xemu.Apu
