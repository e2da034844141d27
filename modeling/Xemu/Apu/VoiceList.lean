import Mathlib
import Xemu.Lib.LinkList
import Xemu.Apu.Frame

/-! # The voice lists

    What the voice lists are, and how the voice records hold them.  The
    lists are threaded through the voice records as `Xemu.Apu.Frame`
    describes; `VOICE_ON` links a voice in, at the top of the list `FEAV`
    names or right after `FEAV`'s antecedent voice, and no method of
    `fe_method` links one out.

    Above the model, `VoiceLists` says what the lists are: three lists of
    voice handles with no voice twice.  `Represents` says that the voice
    records and the top registers hold them, and `FrontEnd` runs the
    front-end methods on them.

    Results:
    * `VOICE_ON` of a voice on no list is the abstract step: the voice
      becomes the top of its list or follows the antecedent, and the other
      lists stay as they were (`voiceOn_abstracts`);
    * the other methods and the frames leave the lists alone, so along every
      run whose `VOICE_ON`s name unlisted voices the memory holds the lists
      of the abstract run (`voiceRun_abstracts`);
    * from a state that holds lists, the frame walk queues exactly the
      active voices of the three lists, in list order, and can neither fill
      the queue nor take a voice's lock twice (`vpFrameLists_queue`), and
      after any run of the front end it does so (`voiceRun_frame_queue`);
    * the walk goes through exactly when `FETFORCE1` traps idle voices or
      every listed voice is active; otherwise it stops in the front end's
      assert for the first inactive voice in walk order
      (`vpFrameLists_ok_iff`);
    * a second `VOICE_ON` for the voice at the top of its list links it to
      itself, and the next walk of that list takes its lock a second time,
      which never returns (`voiceOn_top_again_deadlocks`).

    Not modelled: the wait for a voice locked by `VOICE_LOCK`, which only
    orders the walk after the front end; `FEDECMETH` and `FEDECPARAM`, which
    `fe_method` sets.
-/

namespace Xemu.Apu

open Function Xemu.Word Xemu.LinkList

attribute [local instance] neZero_three

/-! ## Section 3: The lists -/

/-- The voice lists as the front end means them: three lists of voice
    handles, 2D, 3D and multipass, with no voice twice on them. -/
structure VoiceLists where
  lists : Fin 3 → List UInt32
  nodup : ((List.finRange 3).flatMap lists).Nodup
  handles : ∀ k, ∀ x ∈ lists k, x.toNat < mcpxHwMaxVoices

namespace VoiceLists

/-- Every listed voice, in the order the frame walks them. -/
def all (L : VoiceLists) : List UInt32 := (List.finRange 3).flatMap L.lists

theorem mem_all {L : VoiceLists} {x : UInt32} : x ∈ L.all ↔ ∃ k, x ∈ L.lists k := by
  simp [all]

theorem nodup_linkTop (L : VoiceLists) (k : Fin 3) {h : UInt32} (hfresh : h ∉ L.all) :
    ((List.finRange 3).flatMap (update L.lists k (h :: L.lists k))).Nodup :=
  (flatMap_update_perm (List.nodup_finRange 3) (List.mem_finRange k) (List.Perm.refl _)).nodup_iff.mpr
    (List.nodup_cons.mpr ⟨hfresh, L.nodup⟩)

theorem handles_linkTop (L : VoiceLists) (k : Fin 3) {h : UInt32} (hh : h.toNat < mcpxHwMaxVoices) :
    ∀ j, ∀ x ∈ update L.lists k (h :: L.lists k) j, x.toNat < mcpxHwMaxVoices := by
  intro j x hx
  by_cases hj : j = k
  · subst hj
    rw [update_self] at hx
    rcases List.mem_cons.mp hx with rfl | hx
    · exact hh
    · exact L.handles j x hx
  · rw [update_of_ne hj] at hx
    exact L.handles j x hx

/-- `h`, on no list, pushed on top of list `k`. -/
def linkTop (L : VoiceLists) (k : Fin 3) (h : UInt32) (hh : h.toNat < mcpxHwMaxVoices)
    (hfresh : h ∉ L.all) : VoiceLists :=
  ⟨update L.lists k (h :: L.lists k), L.nodup_linkTop k hfresh, L.handles_linkTop k hh⟩

/-- A voice after which `h` is linked in lies on one list only: linking it
    in behind `b` changes that list alone. -/
theorem insertAfter_eq_update (L : VoiceLists) {b : UInt32} {k : Fin 3} (hb : b ∈ L.lists k)
    (h : UInt32) :
    (fun j => insertAfter b h (L.lists j)) = update L.lists k (insertAfter b h (L.lists k)) := by
  funext j
  by_cases hj : j = k
  · subst hj
    rw [update_self]
  · rw [update_of_ne hj]
    refine insertAfter_of_not_mem fun hbj => hj ?_
    exact eq_of_mem_of_nodup_flatMap L.nodup (List.mem_finRange j) (List.mem_finRange k) hbj hb

theorem nodup_linkAfter (L : VoiceLists) (b : UInt32) {h : UInt32} (hfresh : h ∉ L.all) :
    ((List.finRange 3).flatMap fun j => insertAfter b h (L.lists j)).Nodup := by
  by_cases hb : ∃ k, b ∈ L.lists k
  · obtain ⟨k, hbk⟩ := hb
    rw [L.insertAfter_eq_update hbk]
    exact (flatMap_update_perm (List.nodup_finRange 3) (List.mem_finRange k)
      (insertAfter_perm hbk)).nodup_iff.mpr (List.nodup_cons.mpr ⟨hfresh, L.nodup⟩)
  · simp only [not_exists] at hb
    simpa [insertAfter_of_not_mem (hb _)] using L.nodup

theorem handles_linkAfter (L : VoiceLists) (b : UInt32) {h : UInt32} (hh : h.toNat < mcpxHwMaxVoices) :
    ∀ j, ∀ x ∈ insertAfter b h (L.lists j), x.toNat < mcpxHwMaxVoices := by
  intro j x hx
  by_cases hb : b ∈ L.lists j
  · rcases List.mem_cons.mp ((insertAfter_perm hb).subset hx) with rfl | hx
    · exact hh
    · exact L.handles j x hx
  · rw [insertAfter_of_not_mem hb] at hx
    exact L.handles j x hx

/-- `h`, on no list, linked in right after voice `b`, on whichever list `b`
    is; no list changes when `b` is on none. -/
def linkAfter (L : VoiceLists) (b h : UInt32) (hh : h.toNat < mcpxHwMaxVoices)
    (hfresh : h ∉ L.all) : VoiceLists :=
  ⟨fun j => insertAfter b h (L.lists j), L.nodup_linkAfter b hfresh, L.handles_linkAfter b hh⟩

theorem nodup_empty : ((List.finRange 3).flatMap fun _ => ([] : List UInt32)).Nodup := by
  rw [List.flatMap_eq_nil_iff.mpr fun _ _ => rfl]
  exact List.nodup_nil

theorem handles_empty : ∀ _ : Fin 3, ∀ x ∈ ([] : List UInt32), x.toNat < mcpxHwMaxVoices :=
  fun _ _ hx => absurd hx List.not_mem_nil

/-- No voice on any list. -/
def empty : VoiceLists := ⟨fun _ => [], nodup_empty, handles_empty⟩

/-- What `VOICE_ON` for voice `h` does to the lists, with `FEAV` as it is:
    `none` where the code aborts, and where `h` is already listed (the walk
    of its list then never comes back, `voiceOn_top_again_deadlocks`). -/
def voiceOnLists (L : VoiceLists) (feav h : UInt32) : Option VoiceLists :=
  if hh : h.toNat < mcpxHwMaxVoices then
    if hfresh : h ∈ L.all then none
    else
      let list := getMask feav nvPapuFeavLst
      if list ≠ nv1ba0PioSetAntecedentVoiceListInherit then
        some (L.linkTop (voiceListIndex list) h hh hfresh)
      else if getMask feav nvPapuFeavValue = 0xFFFF then none
      else some (L.linkAfter (getMask feav nvPapuFeavValue) h hh hfresh)
  else none

end VoiceLists

/-- The front end as far as the lists go: the lists and the antecedent
    register `FEAV` that `VOICE_ON` reads. -/
structure FrontEnd where
  lists : VoiceLists
  /-- `NV_PAPU_FEAV` -/
  feav : UInt32

namespace FrontEnd

/-- An event of `voiceRun` on the front end; `none` where `VOICE_ON` leaves
    the lists' meaning. -/
def step (A : FrontEnd) : VoiceEvent → Option FrontEnd
  | .method .setAntecedentVoice argument => some { A with feav := argument }
  | .method .voiceOn argument =>
    (A.lists.voiceOnLists A.feav (argument &&& nv1ba0PioVoiceOnHandle)).map fun L => { A with lists := L }
  | _ => some A

/-- A run of events on the front end. -/
def run (A : FrontEnd) : List VoiceEvent → Option FrontEnd
  | [] => some A
  | ev :: evs => (A.step ev).bind fun A => run A evs

end FrontEnd

/-! ## Section 4: The lists in the voice records

    A node of a list is a register value; the walk takes its low 16 bits as
    the voice handle.  Every write the front end and the envelopes make is
    one `voiceSetMask` or one register write, so `SameLinks` says once which
    writes keep the lists (`SameLinks.setMask`, `SameLinks.setReg`) and each
    function's lemma checks its writes against them. -/

/-- `NEXT_VOICE_HANDLE` of the voice a node names. -/
def nextVoice (st : ApuVoices) (x : UInt32) : UInt32 :=
  voiceGetMask st x.toUInt16.toNat nvPavsVoiceTarPitchLink nvPavsVoiceTarPitchLinkNextVoiceHandle

/-- `PAR_STATE_ACTIVE_VOICE` of the voice a node names. -/
def voiceActive (st : ApuVoices) (x : UInt32) : Bool :=
  voiceGetMask st x.toUInt16.toNat nvPavsVoiceParState nvPavsVoiceParStateActiveVoice ≠ 0

/-- The voice records and the top registers hold the lists `L`. -/
def Represents (st : ApuVoices) (L : VoiceLists) : Prop :=
  ∀ k, Links (nextVoice st) 0xFFFF (st.regs (voiceListRegs k).top) (L.lists k)

/-- The state holds the front end `A`: its lists and its `FEAV`. -/
structure Abstracts (st : ApuVoices) (A : FrontEnd) : Prop where
  represents : Represents st A.lists
  feav : st.regs nvPapuFeav = A.feav

/-- `st'` holds the same lists and `FEAV` as `st`. -/
structure SameLinks (st st' : ApuVoices) : Prop where
  next : nextVoice st' = nextVoice st
  top : ∀ k, st'.regs (voiceListRegs k).top = st.regs (voiceListRegs k).top
  feav : st'.regs nvPapuFeav = st.regs nvPapuFeav

section links

variable {st st₀ st₁ st' : ApuVoices}

/-- A state whose three tops hold `0xFFFF` holds no list. -/
theorem represents_empty (htop : ∀ k, st.regs (voiceListRegs k).top = 0xFFFF) :
    Represents st VoiceLists.empty :=
  fun k => htop k

theorem SameLinks.refl (st : ApuVoices) : SameLinks st st := ⟨rfl, fun _ => rfl, rfl⟩

theorem SameLinks.trans (h₁ : SameLinks st₀ st₁) (h₂ : SameLinks st₁ st') : SameLinks st₀ st' :=
  ⟨h₂.next.trans h₁.next, fun k => (h₂.top k).trans (h₁.top k), h₂.feav.trans h₁.feav⟩

theorem Represents.of_sameLinks {L : VoiceLists} (hrep : Represents st L) (h : SameLinks st st') :
    Represents st' L := by
  intro k
  rw [h.next, h.top k]
  exact hrep k

theorem Abstracts.of_sameLinks {A : FrontEnd} (hA : Abstracts st A) (h : SameLinks st st') :
    Abstracts st' A :=
  ⟨hA.represents.of_sameLinks h, h.feav.trans hA.feav⟩

/-- A write to another word of a voice record keeps the lists. -/
theorem SameLinks.setMask (h : SameLinks st₀ st) (o : Nat) (ho : o ≠ nvPavsVoiceTarPitchLink)
    (v : Nat) (m x : UInt32) : SameLinks st₀ (voiceSetMask st v o m x) := by
  refine ⟨?_, h.top, h.feav⟩
  rw [← h.next]
  funext y
  simp only [nextVoice, voiceGetMask_voiceSetMask]
  rw [if_neg fun hy => ho hy.2.symm]

/-- A write to a register other than the top registers and `FEAV` keeps
    the lists. -/
theorem SameLinks.setReg (h : SameLinks st₀ st) {r : Nat} (hr : ∀ k, (voiceListRegs k).top ≠ r)
    (hfeav : nvPapuFeav ≠ r) (x : UInt32) : SameLinks st₀ { st with regs := update st.regs r x } :=
  ⟨h.next, fun k => (update_of_ne (hr k) _ _).trans (h.top k), (update_of_ne hfeav _ _).trans h.feav⟩

theorem SameLinks.voiceOff (h : SameLinks st₀ st) (v : Nat) : SameLinks st₀ (voiceOff st v) :=
  (h.setMask nvPavsVoiceParState (by decide) v _ _).setReg (by decide) (by decide) _

theorem SameLinks.voiceOnEnvelope (h : SameLinks st₀ st) (v : Nat) (argument startMask curMask countMask : UInt32)
    (delayReg holdReg : Nat) :
    SameLinks st₀ (Xemu.Apu.voiceOnEnvelope st v argument startMask curMask countMask delayReg holdReg) := by
  have hcur := h.setMask nvPavsVoiceParState (by decide) v curMask (getMask argument startMask)
  unfold Xemu.Apu.voiceOnEnvelope
  dsimp only
  split_ifs
  all_goals first
    | exact hcur
    | exact hcur.setMask nvPavsVoiceCurEcnt (by decide) _ _ _

theorem SameLinks.voiceReleaseEnvelope (h : SameLinks st₀ st) (v rrReg : Nat) (rrMask curMask countMask : UInt32) :
    SameLinks st₀ (Xemu.Apu.voiceReleaseEnvelope st v rrReg rrMask curMask countMask) :=
  (h.setMask nvPavsVoiceCurEcnt (by decide) v _ _).setMask nvPavsVoiceParState (by decide) v _ _

/-- An envelope step writes the count, the phase, the level and the active
    bit, never a link. -/
theorem voiceStepEnvelope_sameLinks {powf : ℚ → ℚ → ℚ} {v : Nat} {e : EnvelopeRegs} {x : ℚ}
    (he : e = efEnvelope ∨ e = eaEnvelope) (h : voiceStepEnvelope powf st v e = .ok (x, st')) :
    SameLinks st st' := by
  have hlvl : e.lvlReg ≠ nvPavsVoiceTarPitchLink := by rcases he with rfl | rfl <;> decide
  unfold voiceStepEnvelope at h
  dsimp only at h
  repeat' split at h
  all_goals try (simp only [Except.ok.injEq, Prod.mk.injEq] at h; obtain ⟨-, rfl⟩ := h)
  all_goals try cases h
  all_goals repeat' (first
    | exact SameLinks.refl _
    | apply SameLinks.voiceOff
    | apply SameLinks.setMask _ _ hlvl
    | apply SameLinks.setMask _ _ (by decide))

theorem voiceProcessEnvelopes_sameLinks {powf : ℚ → ℚ → ℚ} {v : Nat} {r : Option (ℚ × ℚ)}
    (h : voiceProcessEnvelopes powf st v = .ok (st', r)) : SameLinks st st' := by
  unfold voiceProcessEnvelopes at h
  split_ifs at h
  · cases h
    exact SameLinks.refl _
  split at h
  · cases h
  rename_i hef
  split_ifs at h
  split at h
  · cases h
  rename_i hea
  split_ifs at h
  cases h
  exact (voiceStepEnvelope_sameLinks (.inl rfl) hef).trans (voiceStepEnvelope_sameLinks (.inr rfl) hea)

end links

/-! ## Section 5: `VOICE_ON` links a voice in -/

section voiceOn

variable {st st' : ApuVoices} {L : VoiceLists}

@[simp] theorem nextVoice_regs (st : ApuVoices) (r : Nat → UInt32) :
    nextVoice { st with regs := r } = nextVoice st := rfl

@[simp] theorem voiceActive_regs (st : ApuVoices) (r : Nat → UInt32) :
    voiceActive { st with regs := r } = voiceActive st := rfl

theorem voiceListTop_eq (list : UInt32) : voiceListTop list = (voiceListRegs (voiceListIndex list)).top := by
  unfold voiceListTop voiceListIndex
  split_ifs <;> rfl

theorem voiceListRegs_top_injective : Injective fun k => (voiceListRegs k).top := by
  decide

theorem feav_ne_top (k : Fin 3) : nvPapuFeav ≠ (voiceListRegs k).top := by
  revert k
  decide

/-- A value below `2 ^ 16` is its own low 16 bits. -/
theorem toNat_toUInt16_of_lt {x : UInt32} (hx : x.toNat < 2 ^ 16) : x.toUInt16.toNat = x.toNat := by
  rw [UInt32.toNat_toUInt16]
  exact Nat.mod_eq_of_lt hx

theorem and_ffff_of_lt {x : UInt32} (hx : x.toNat < 2 ^ 16) : x &&& 0xFFFF = x := by
  apply UInt32.toNat_inj.mp
  rw [UInt32.toNat_and, show (0xFFFF : UInt32).toNat = 2 ^ 16 - 1 from rfl,
    Nat.and_two_pow_sub_one_eq_mod]
  exact Nat.mod_eq_of_lt hx

theorem nextVoice_lt (st : ApuVoices) (x : UInt32) : (nextVoice st x).toNat < 2 ^ 16 :=
  Nat.lt_of_le_of_lt (getMask_toNat_le _ _) (by decide)

/-- The link word of voice `i` written with `val`: `val` is the new
    successor of the nodes naming `i`, and of them only. -/
theorem nextVoice_setLink (st : ApuVoices) (i : Nat) (val x : UInt32) :
    nextVoice (voiceSetMask st i nvPavsVoiceTarPitchLink nvPavsVoiceTarPitchLinkNextVoiceHandle val) x =
      if x.toUInt16.toNat = i then val &&& 0xFFFF else nextVoice st x := by
  simp only [nextVoice, voiceGetMask_voiceSetMask, and_true]
  split_ifs
  · rw [getMask_setMask_self]
    simp [getMask, show ctz32 0xFFFF = 0 by decide]
  · rfl

/-- A listed node names the voice of its own number. -/
theorem VoiceLists.toUInt16_of_mem (L : VoiceLists) {k : Fin 3} {x : UInt32} (hx : x ∈ L.lists k) :
    x.toUInt16.toNat = x.toNat :=
  toNat_toUInt16_of_lt (Nat.lt_trans (L.handles k x hx) (by decide))

theorem ne_of_mem_of_not_mem_all {k : Fin 3} {x h : UInt32} (hx : x ∈ L.lists k) (hfresh : h ∉ L.all) :
    x ≠ h := by
  rintro rfl
  exact hfresh (VoiceLists.mem_all.mpr ⟨k, hx⟩)

/-- The top register of a held list is `0xFFFF` or a listed voice. -/
theorem Represents.top_lt (hrep : Represents st L) (k : Fin 3) :
    (st.regs (voiceListRegs k).top).toNat < 2 ^ 16 := by
  rcases (hrep k).head_eq with htop | htop
  · rw [htop]
    decide
  · exact Nat.lt_trans (L.handles k _ htop) (by decide)

/-- Linking `h`, on no list, on top of list `k`: its link word takes the old
    top, and the top register takes `h`. -/
theorem Represents.linkTop (hrep : Represents st L) (k : Fin 3) {h : UInt32}
    (hh : h.toNat < mcpxHwMaxVoices) (hfresh : h ∉ L.all) :
    Represents
      { voiceSetMask st h.toNat nvPavsVoiceTarPitchLink nvPavsVoiceTarPitchLinkNextVoiceHandle
          (st.regs (voiceListRegs k).top) with regs := update st.regs (voiceListRegs k).top h }
      (L.linkTop k h hh hfresh) := by
  have hh16 : h.toUInt16.toNat = h.toNat := toNat_toUInt16_of_lt (Nat.lt_trans hh (by decide))
  -- only `h`'s successor changes
  have hnext : ∀ j, ∀ x ∈ L.lists j, nextVoice (voiceSetMask st h.toNat nvPavsVoiceTarPitchLink
      nvPavsVoiceTarPitchLinkNextVoiceHandle (st.regs (voiceListRegs k).top)) x = nextVoice st x := by
    intro j x hx
    rw [nextVoice_setLink, if_neg]
    rw [L.toUInt16_of_mem hx]
    exact fun he => ne_of_mem_of_not_mem_all hx hfresh (UInt32.toNat_inj.mp he)
  intro j
  simp only [nextVoice_regs]
  by_cases hj : j = k
  · subst hj
    simp only [VoiceLists.linkTop, update_self]
    refine (hrep j).cons ?_ ?_ (hnext j)
    · rintro rfl
      exact absurd hh (by decide)
    · rw [nextVoice_setLink, if_pos hh16, and_ffff_of_lt (hrep.top_lt j)]
  · have htop : (voiceListRegs j).top ≠ (voiceListRegs k).top :=
      fun he => hj (voiceListRegs_top_injective he)
    simp only [VoiceLists.linkTop, update_of_ne hj, update_of_ne htop]
    exact (hrep j).congr (hnext j)

/-- Linking `h`, on no list, right after voice `b`: `h`'s link word takes
    `b`'s successor, then `b`'s link word takes `h`. -/
theorem Represents.linkAfter (hrep : Represents st L) {b h : UInt32} (hb : b.toNat < 2 ^ 16)
    (hh : h.toNat < mcpxHwMaxVoices) (hfresh : h ∉ L.all) :
    Represents
      (voiceSetMask
        (voiceSetMask st h.toNat nvPavsVoiceTarPitchLink nvPavsVoiceTarPitchLinkNextVoiceHandle
          (voiceGetMask st b.toNat nvPavsVoiceTarPitchLink nvPavsVoiceTarPitchLinkNextVoiceHandle))
        b.toNat nvPavsVoiceTarPitchLink nvPavsVoiceTarPitchLinkNextVoiceHandle h)
      (L.linkAfter b h hh hfresh) := by
  have hh16 : h.toUInt16.toNat = h.toNat := toNat_toUInt16_of_lt (Nat.lt_trans hh (by decide))
  have hb16 : b.toUInt16.toNat = b.toNat := toNat_toUInt16_of_lt hb
  -- the successor of every listed node but `b`, and of `h`, as before
  have hnext : ∀ j, ∀ x ∈ L.lists j, x ≠ b →
      nextVoice (voiceSetMask (voiceSetMask st h.toNat nvPavsVoiceTarPitchLink
        nvPavsVoiceTarPitchLinkNextVoiceHandle
          (voiceGetMask st b.toNat nvPavsVoiceTarPitchLink nvPavsVoiceTarPitchLinkNextVoiceHandle))
        b.toNat nvPavsVoiceTarPitchLink nvPavsVoiceTarPitchLinkNextVoiceHandle h) x = nextVoice st x := by
    intro j x hx hxb
    rw [nextVoice_setLink, nextVoice_setLink, L.toUInt16_of_mem hx,
      if_neg fun he => hxb (UInt32.toNat_inj.mp he),
      if_neg fun he => ne_of_mem_of_not_mem_all hx hfresh (UInt32.toNat_inj.mp he)]
  intro j
  simp only [VoiceLists.linkAfter]
  by_cases hbj : b ∈ L.lists j
  · have hhb : h ≠ b := (ne_of_mem_of_not_mem_all hbj hfresh).symm
    refine (hrep j).insertAfter hbj ?_ ?_ ?_ (hnext j)
    · rintro rfl
      exact absurd hh (by decide)
    · rw [nextVoice_setLink, if_pos hb16, and_ffff_of_lt (Nat.lt_trans hh (by decide))]
    · have hsucc : voiceGetMask st b.toNat nvPavsVoiceTarPitchLink
          nvPavsVoiceTarPitchLinkNextVoiceHandle = nextVoice st b := by
        simp only [nextVoice, hb16]
      rw [nextVoice_setLink, nextVoice_setLink, hh16, if_neg fun he => hhb (UInt32.toNat_inj.mp he),
        if_pos rfl, hsucc, and_ffff_of_lt (nextVoice_lt st b)]
  · rw [insertAfter_of_not_mem hbj]
    exact (hrep j).congr fun x hx => hnext j x hx fun hxb => hbj (hxb ▸ hx)

end voiceOn

/-! ## Section 6: Runs of the front end hold the abstract lists -/

section run

variable {st st' : ApuVoices} {A : FrontEnd}

/-- `VOICE_ON` for a voice on no list is the abstract step. -/
theorem voiceOn_abstracts {argument : UInt32} {L' : VoiceLists} (hA : Abstracts st A)
    (hL : A.lists.voiceOnLists A.feav (argument &&& nv1ba0PioVoiceOnHandle) = some L')
    (h : voiceOn st argument = .ok st') : Abstracts st' { A with lists := L' } := by
  have hfeav := hA.feav
  by_cases hh : (argument &&& nv1ba0PioVoiceOnHandle).toNat < mcpxHwMaxVoices
  swap
  · simp only [VoiceLists.voiceOnLists, dif_neg hh, reduceCtorEq] at hL
  by_cases hfresh : argument &&& nv1ba0PioVoiceOnHandle ∈ A.lists.all
  · simp only [VoiceLists.voiceOnLists, dif_pos hh, dif_pos hfresh, reduceCtorEq] at hL
  simp only [VoiceLists.voiceOnLists, dif_pos hh, dif_neg hfresh, ← hfeav] at hL
  unfold voiceOn at h
  simp only [ge_iff_le, UInt32.ofNat_toNat] at h
  rw [if_neg (Nat.not_le.mpr hh)] at h
  by_cases hlist : getMask (st.regs nvPapuFeav) nvPapuFeavLst = nv1ba0PioSetAntecedentVoiceListInherit
  · -- after the antecedent voice
    simp only [hlist, ne_eq, not_true_eq_false, if_false] at hL h
    by_cases hante : getMask (st.regs nvPapuFeav) nvPapuFeavValue = 0xFFFF
    · simp only [hante, if_true, reduceCtorEq] at hL
    simp only [hante, if_false, Option.some.injEq, Except.ok.injEq] at hL h
    subst hL h
    refine Abstracts.of_sameLinks
      ⟨Represents.linkAfter hA.represents (Nat.lt_of_le_of_lt (getMask_toNat_le _ _) (by decide)) hh hfresh,
        hfeav⟩ ?_
    repeat' first
      | exact SameLinks.refl _
      | apply SameLinks.voiceOnEnvelope
      | apply SameLinks.setMask _ _ (by decide)
  · -- on top of the list
    simp only [hlist, ne_eq, not_false_eq_true, if_true, Option.some.injEq, Except.ok.injEq,
      voiceListTop_eq, voiceSetMask_regs] at hL h
    subst hL h
    refine Abstracts.of_sameLinks ⟨Represents.linkTop hA.represents _ hh hfresh, ?_⟩ ?_
    · rw [← hfeav]
      exact update_of_ne (feav_ne_top _) _ _
    repeat' first
      | exact SameLinks.refl _
      | apply SameLinks.voiceOnEnvelope
      | apply SameLinks.setMask _ _ (by decide)

/-- A front-end method is the abstract step: `VOICE_ON` as above,
    `SET_ANTECEDENT_VOICE` sets `FEAV`, and the others keep both. -/
theorem feMethod_abstracts {m : FeMethod} {argument : UInt32} {A' : FrontEnd} (hA : Abstracts st A)
    (hstep : A.step (.method m argument) = some A') (h : feMethod st m argument = .ok st') :
    Abstracts st' A' := by
  cases m with
  | voiceOn =>
    simp only [FrontEnd.step, Option.map_eq_some_iff] at hstep
    obtain ⟨L, hL, rfl⟩ := hstep
    exact voiceOn_abstracts hA hL h
  | setAntecedentVoice =>
    simp only [FrontEnd.step, Option.some.injEq] at hstep
    subst hstep
    cases h
    refine ⟨fun k => ?_, by simp⟩
    simp only [nextVoice_regs, update_of_ne (feav_ne_top k).symm]
    exact hA.represents k
  | voiceRelease =>
    simp only [FrontEnd.step, Option.some.injEq] at hstep
    subst hstep
    unfold feMethod voiceRelease at h
    dsimp only at h
    split_ifs at h
    cases h
    exact hA.of_sameLinks (((SameLinks.refl st).voiceReleaseEnvelope _ _ _ _ _).voiceReleaseEnvelope _ _ _ _ _)
  | voiceOff =>
    simp only [FrontEnd.step, Option.some.injEq] at hstep
    subst hstep
    cases h
    exact hA.of_sameLinks ((SameLinks.refl st).voiceOff _)
  | voicePause =>
    simp only [FrontEnd.step, Option.some.injEq] at hstep
    subst hstep
    cases h
    exact hA.of_sameLinks ((SameLinks.refl st).setMask _ (by decide) _ _ _)
  | setCurrentVoice =>
    simp only [FrontEnd.step, Option.some.injEq] at hstep
    subst hstep
    cases h
    exact hA.of_sameLinks ((SameLinks.refl st).setReg (by decide) (by decide) _)
  | setVoiceCfgEnv0 | setVoiceCfgEnva | setVoiceCfgEnv1 | setVoiceCfgEnvf | setVoiceCfgMisc
  | setVoiceLfoEnv =>
    simp only [FrontEnd.step, Option.some.injEq] at hstep
    subst hstep
    cases h
    exact hA.of_sameLinks ((SameLinks.refl st).setMask _ (by decide) _ _ _)

end run

/-! ## Section 7: The frame's walk queues the active voices

    The walk changes only its own registers, so the lists it reads stay
    put while it reads them (`WalkFrame`).  One visit queues an active
    voice or traps on an inactive one (`vpFrameVisit_ok`); the loop over a
    stretch of a list does that for each of its voices in turn
    (`vpFrameListLoop_seg`), and over a whole list ends at its end. -/

/-- `FETFORCE1` asks the front end to trap on idle voices. -/
def IdleTraps (st : ApuVoices) : Prop :=
  st.regs nvPapuFetforce1 &&& nvPapuFetforce1Se2feIdleVoice ≠ 0

/-- The active voices of the lists, each with its list, in the order the
    walk takes them. -/
def VoiceLists.activeQueue (L : VoiceLists) (st : ApuVoices) : List VoiceWorkItem :=
  (List.finRange 3).flatMap fun k => ((L.lists k).filter (voiceActive st)).map fun x => ⟨x.toNat, k⟩

section walk

variable {st st₁ st' : ApuVoices} {L : VoiceLists}

theorem WalkFrame.nextVoice (h : WalkFrame st st') : nextVoice st' = nextVoice st := by
  unfold Xemu.Apu.nextVoice voiceGetMask
  rw [h.voices]

theorem WalkFrame.voiceActive (h : WalkFrame st st') : voiceActive st' = voiceActive st := by
  unfold Xemu.Apu.voiceActive voiceGetMask
  rw [h.voices]

theorem WalkFrame.idleTraps (h : WalkFrame st st') : IdleTraps st' ↔ IdleTraps st := by
  rw [IdleTraps, IdleTraps, h.regs nvPapuFetforce1 (by decide)]

theorem WalkFrame.sameLinks (h : WalkFrame st st') : SameLinks st st' :=
  ⟨h.nextVoice, fun k => h.regs _ (by revert k; decide), h.regs _ (by decide)⟩

theorem current_ne_next (k : Fin 3) : (voiceListRegs k).current ≠ (voiceListRegs k).next := by
  revert k
  decide

theorem next_ne_fectl (k : Fin 3) : (voiceListRegs k).next ≠ nvPapuFectl := by
  revert k
  decide

/-- A voice below `MCPX_HW_MAX_VOICES` whose lock the walk does not hold:
    an active one joins the queue if there is room, an inactive one traps
    the front end if `FETFORCE1` asks for it.  Only `FECTL` changes. -/
theorem vpFrameVisit_ok {s : FrameState} {x : UInt32} (list : Nat) (hx : x.toNat < mcpxHwMaxVoices)
    (hfree : x.toNat ∉ s.queue.map VoiceWorkItem.voice)
    (hroom : voiceActive s.apu x → s.queue.length < mcpxHwMaxVoices)
    (hidle : IdleTraps s.apu ∨ voiceActive s.apu x) :
    ∃ s', vpFrameVisit s x.toUInt16.toNat list = .ok s' ∧
      s'.queue = s.queue ++ (if voiceActive s.apu x then [⟨x.toNat, list⟩] else []) ∧
      s'.apu.voices = s.apu.voices ∧ ∀ r, r ≠ nvPapuFectl → s'.apu.regs r = s.apu.regs r := by
  have hx16 : x.toUInt16.toNat = x.toNat := toNat_toUInt16_of_lt (Nat.lt_trans hx (by decide))
  have hact : voiceActive s.apu x = decide (voiceGetMask s.apu x.toNat nvPavsVoiceParState
      nvPavsVoiceParStateActiveVoice ≠ 0) := by
    rw [Xemu.Apu.voiceActive, hx16]
  unfold vpFrameVisit
  rw [hx16]
  by_cases ha : voiceGetMask s.apu x.toNat nvPavsVoiceParState nvPavsVoiceParStateActiveVoice = 0
  · -- inactive: the front end traps
    have htrap : IdleTraps s.apu := hidle.resolve_right (by simp [hact, ha])
    unfold IdleTraps at htrap
    rw [if_pos ha, se2feIdleVoice, if_pos htrap]
    exact ⟨_, rfl, by simp [hact, ha], rfl, fun r hr => update_of_ne hr _ _⟩
  · -- active: the voice is queued and its lock taken
    have hav : voiceActive s.apu x = true := by simp [hact, ha]
    rw [if_neg ha, voiceWorkEnqueue, if_pos (hroom hav), if_neg hfree, if_pos hx]
    exact ⟨_, rfl, by simp [hav], rfl, fun _ _ => rfl⟩

/-- One iteration of the loop at a listed voice `c`: it is visited, and
    `current` moves on to its successor. -/
theorem vpFrameListLoop_step {k : Fin 3} {s : FrameState} {c : UInt32} (fuel : Nat)
    (hc : s.apu.regs (voiceListRegs k).current = c) (hcnil : c ≠ 0xFFFF) (hlt : c.toNat < mcpxHwMaxVoices)
    (hfree : c.toNat ∉ s.queue.map VoiceWorkItem.voice)
    (hroom : voiceActive s.apu c → s.queue.length < mcpxHwMaxVoices)
    (hidle : IdleTraps s.apu ∨ voiceActive s.apu c) :
    ∃ s', vpFrameListLoop k (voiceListRegs k) (fuel + 1) s = vpFrameListLoop k (voiceListRegs k) fuel s' ∧
      s'.apu.regs (voiceListRegs k).current = nextVoice s.apu c ∧
      s'.queue = s.queue ++ (if voiceActive s.apu c then [⟨c.toNat, k⟩] else []) ∧
      WalkFrame s.apu s'.apu := by
  -- the state after `d->regs[next]` is read
  have hw₁ : WalkFrame s.apu (FrameState.apu { s with apu := { s.apu with
      regs := update s.apu.regs (voiceListRegs k).next (nextVoice s.apu c) } }) :=
    (WalkFrame.refl _).setReg (next_mem_walkRegs k) _
  obtain ⟨s₂, hvisit, hq, hvoices, hregs⟩ := vpFrameVisit_ok (s := { s with apu := { s.apu with
      regs := update s.apu.regs (voiceListRegs k).next (nextVoice s.apu c) } }) k hlt hfree
    (by rwa [hw₁.voiceActive]) (by rwa [hw₁.voiceActive, hw₁.idleTraps])
  have hnext : s₂.apu.regs (voiceListRegs k).next = nextVoice s.apu c := by
    simp only [hregs _ (next_ne_fectl k), update_self]
  -- `d->regs[current] = d->regs[next]`
  let regs₃ := update s₂.apu.regs (voiceListRegs k).current (s₂.apu.regs (voiceListRegs k).next)
  refine ⟨{ s₂ with apu := { s₂.apu with regs := regs₃ } }, ?_, ?_,
    by rw [← hw₁.voiceActive]; exact hq, ?_⟩
  · rw [vpFrameListLoop, if_neg (hc ▸ hcnil)]
    simp only [hc, nextVoice] at hvisit ⊢
    rw [hvisit]
  · simp only [regs₃, update_self, hnext]
  · refine ⟨hvoices, fun r hr => ?_⟩
    have hrc : r ≠ (voiceListRegs k).current := fun he => hr (he ▸ current_mem_walkRegs k)
    have hrn : r ≠ (voiceListRegs k).next := fun he => hr (he ▸ next_mem_walkRegs k)
    have hrf : r ≠ nvPapuFectl := fun he => hr (he ▸ by decide)
    simp only [regs₃, update_of_ne hrc, hregs r hrf, update_of_ne hrn]

/-- The loop over a stretch `p` of a list, from the voice in `current` up
    to `m`: each voice of `p` is visited in turn.  Induction on `p`, one
    `vpFrameListLoop_step` a voice. -/
theorem vpFrameListLoop_seg {k : Fin 3} {p : List UInt32} {m : UInt32} {s : FrameState} {n : Nat}
    (hp : Seg (nextVoice s.apu) 0xFFFF (s.apu.regs (voiceListRegs k).current) p m)
    (hfuel : p.length ≤ n) (hnd : p.Nodup) (hlt : ∀ x ∈ p, x.toNat < mcpxHwMaxVoices)
    (hfree : ∀ x ∈ p, x.toNat ∉ s.queue.map VoiceWorkItem.voice)
    (hroom : s.queue.length + (p.filter (voiceActive s.apu)).length ≤ mcpxHwMaxVoices)
    (hidle : IdleTraps s.apu ∨ ∀ x ∈ p, voiceActive s.apu x) :
    ∃ s', vpFrameListLoop k (voiceListRegs k) n s =
        vpFrameListLoop k (voiceListRegs k) (n - p.length) s' ∧
      s'.apu.regs (voiceListRegs k).current = m ∧
      s'.queue = s.queue ++ (p.filter (voiceActive s.apu)).map (fun x => ⟨x.toNat, k⟩) ∧
      WalkFrame s.apu s'.apu := by
  induction p generalizing s n with
  | nil => exact ⟨s, by simp, hp, by simp, WalkFrame.refl _⟩
  | cons c p ih =>
    obtain ⟨hc, hcnil, hp⟩ := hp
    rw [hc] at hcnil hp
    obtain ⟨hcp, hnd⟩ := List.nodup_cons.mp hnd
    obtain ⟨n, rfl⟩ : ∃ f, n = f + 1 := ⟨n - 1, by simp at hfuel; omega⟩
    -- the first voice, `c`
    obtain ⟨s₁, hloop₁, hcur₁, hq₁, hw₁⟩ := vpFrameListLoop_step n hc hcnil (hlt c List.mem_cons_self)
      (hfree c List.mem_cons_self) (fun ha => by simp [ha] at hroom; omega)
      (hidle.imp_right fun h => h c List.mem_cons_self)
    -- the rest of the stretch, from `c`'s successor
    have hfree₁ : ∀ x ∈ p, x.toNat ∉ s₁.queue.map VoiceWorkItem.voice := by
      intro x hx
      have hxc : x.toNat ≠ c.toNat := fun he => hcp (UInt32.toNat_inj.mp he ▸ hx)
      rw [hq₁]
      split <;> simp [hfree x (List.mem_cons_of_mem _ hx), hxc]
    have hroom₁ : s₁.queue.length + (p.filter (voiceActive s₁.apu)).length ≤ mcpxHwMaxVoices := by
      rw [hw₁.voiceActive, hq₁]
      by_cases ha : voiceActive s.apu c <;> simp [ha] at hroom ⊢ <;> omega
    obtain ⟨s', hloop', hcur', hq', hw'⟩ := ih (s := s₁) (n := n)
      (by rw [hw₁.nextVoice, hcur₁]; exact hp) (by simp at hfuel; omega) hnd
      (fun x hx => hlt x (List.mem_cons_of_mem _ hx)) hfree₁ hroom₁
      (by rw [hw₁.idleTraps, hw₁.voiceActive]; exact hidle.imp_right fun h x hx => h x (List.mem_cons_of_mem _ hx))
    refine ⟨s', by rw [hloop₁, hloop']; simp, hcur', ?_, hw₁.trans hw'⟩
    rw [hq', hq₁, hw₁.voiceActive]
    by_cases ha : voiceActive s.apu c <;> simp [ha]

/-- The loop over a whole list visits each of its voices in turn and stops
    at `0xFFFF`. -/
theorem vpFrameListLoop_links {k : Fin 3} {l : List UInt32} {s : FrameState} {fuel : Nat}
    (hl : Links (nextVoice s.apu) 0xFFFF (s.apu.regs (voiceListRegs k).current) l)
    (hfuel : l.length ≤ fuel) (hlt : ∀ x ∈ l, x.toNat < mcpxHwMaxVoices)
    (hfree : ∀ x ∈ l, x.toNat ∉ s.queue.map VoiceWorkItem.voice)
    (hroom : s.queue.length + (l.filter (voiceActive s.apu)).length ≤ mcpxHwMaxVoices)
    (hidle : IdleTraps s.apu ∨ ∀ x ∈ l, voiceActive s.apu x) :
    ∃ s', vpFrameListLoop k (voiceListRegs k) fuel s = .ok s' ∧
      s'.queue = s.queue ++ (l.filter (voiceActive s.apu)).map (fun x => ⟨x.toNat, k⟩) ∧
      WalkFrame s.apu s'.apu := by
  obtain ⟨s', hloop, hcur, hq, hw⟩ := vpFrameListLoop_seg hl hfuel hl.nodup hlt hfree hroom hidle
  refine ⟨s', ?_, hq, hw⟩
  rw [hloop]
  -- `current` holds `0xFFFF`: the loop stops whether or not iterations are left
  cases fuel - l.length with
  | zero => rfl
  | succ n => rw [vpFrameListLoop, if_pos hcur]

theorem VoiceLists.length_all_le (L : VoiceLists) : L.all.length ≤ mcpxHwMaxVoices := by
  -- the handles are distinct numbers below `MCPX_HW_MAX_VOICES`
  have hnd : (L.all.map UInt32.toNat).Nodup := L.nodup.map fun _ _ h => UInt32.toNat_inj.mp h
  have hsub : (L.all.map UInt32.toNat).toFinset ⊆ Finset.range mcpxHwMaxVoices := by
    intro n hn
    obtain ⟨x, hx, rfl⟩ := List.mem_map.mp (List.mem_toFinset.mp hn)
    obtain ⟨k, hxk⟩ := VoiceLists.mem_all.mp hx
    exact Finset.mem_range.mpr (L.handles k x hxk)
  have hcard := Finset.card_le_card hsub
  rw [List.toFinset_card_of_nodup hnd, Finset.card_range, List.length_map] at hcard
  exact hcard

theorem VoiceLists.length_le (L : VoiceLists) (k : Fin 3) : (L.lists k).length ≤ mcpxHwMaxVoices :=
  Nat.le_trans (List.Sublist.length_le (List.sublist_flatten_of_mem (List.mem_map_of_mem (List.mem_finRange k))))
    L.length_all_le

/-- The walk of list `k` from a state that holds the lists: its active
    voices join the queue in list order. -/
theorem vpFrameList_walk {L : VoiceLists} {k : Fin 3} {s : FrameState} (hrep : Represents s.apu L)
    (hfree : ∀ x ∈ L.lists k, x.toNat ∉ s.queue.map VoiceWorkItem.voice)
    (hroom : s.queue.length + ((L.lists k).filter (voiceActive s.apu)).length ≤ mcpxHwMaxVoices)
    (hidle : IdleTraps s.apu ∨ ∀ x ∈ L.lists k, voiceActive s.apu x) :
    ∃ s', vpFrameList s k = .ok s' ∧
      s'.queue = s.queue ++ ((L.lists k).filter (voiceActive s.apu)).map (fun x => ⟨x.toNat, k⟩) ∧
      WalkFrame s.apu s'.apu := by
  -- `d->regs[current] = d->regs[top]`
  have hw₀ : WalkFrame s.apu (FrameState.apu { s with apu := { s.apu with
      regs := update s.apu.regs (voiceListRegs k).current (s.apu.regs (voiceListRegs k).top) } }) :=
    (WalkFrame.refl _).setReg (current_mem_walkRegs k) _
  obtain ⟨s', hloop, hq, hw⟩ := vpFrameListLoop_links (k := k)
    (s := { s with apu := { s.apu with
      regs := update s.apu.regs (voiceListRegs k).current (s.apu.regs (voiceListRegs k).top) } })
    (by rw [hw₀.nextVoice]; simpa using hrep k) (L.length_le k) (L.handles k) hfree
    (by rwa [hw₀.voiceActive]) (by rwa [hw₀.idleTraps, hw₀.voiceActive])
  exact ⟨s', hloop, by rw [hq, hw₀.voiceActive], hw₀.trans hw⟩

/-- The walk of list `k` queues voices of list `k` only. -/
theorem not_mem_queued {L : VoiceLists} {j k : Fin 3} (hjk : j ≠ k) {x : UInt32} (hx : x ∈ L.lists j)
    (P : UInt32 → Bool) :
    x.toNat ∉ (((L.lists k).filter P).map fun y => (⟨y.toNat, k⟩ : VoiceWorkItem)).map
      VoiceWorkItem.voice := by
  intro hmem
  simp only [List.map_map] at hmem
  obtain ⟨y, hy, hyx⟩ := List.mem_map.mp hmem
  have hxy : y = x := UInt32.toNat_inj.mp hyx
  subst hxy
  exact hjk (eq_of_mem_of_nodup_flatMap L.nodup (List.mem_finRange j) (List.mem_finRange k) hx
    (List.mem_of_mem_filter hy))

/-- The walk of the lists `ks`, in turn. -/
theorem foldlM_vpFrameList {L : VoiceLists} {ks : List (Fin 3)} (hks : ks.Nodup) {s : FrameState}
    (hrep : Represents s.apu L)
    (hfree : ∀ k ∈ ks, ∀ x ∈ L.lists k, x.toNat ∉ s.queue.map VoiceWorkItem.voice)
    (hroom : s.queue.length + (ks.flatMap fun k => (L.lists k).filter (voiceActive s.apu)).length ≤
      mcpxHwMaxVoices)
    (hidle : IdleTraps s.apu ∨ ∀ k ∈ ks, ∀ x ∈ L.lists k, voiceActive s.apu x) :
    ∃ s', ks.foldlM vpFrameList s = .ok s' ∧
      s'.queue = s.queue ++ ks.flatMap (fun k =>
        ((L.lists k).filter (voiceActive s.apu)).map fun x => ⟨x.toNat, k⟩) ∧
      WalkFrame s.apu s'.apu := by
  induction ks generalizing s with
  | nil => exact ⟨s, rfl, by simp, WalkFrame.refl _⟩
  | cons k ks ih =>
    obtain ⟨hkks, hks⟩ := List.nodup_cons.mp hks
    simp only [List.flatMap_cons, List.length_append] at hroom
    obtain ⟨s₁, h₁, hq₁, hw₁⟩ := vpFrameList_walk hrep (hfree k List.mem_cons_self) (by omega)
      (hidle.imp_right fun h => h k List.mem_cons_self)
    -- the voices of the later lists are not on list `k`, so the walk holds none of their locks
    have hfree₁ : ∀ j ∈ ks, ∀ x ∈ L.lists j, x.toNat ∉ s₁.queue.map VoiceWorkItem.voice := by
      intro j hj x hx
      rw [hq₁]
      simp only [List.map_append, List.mem_append, not_or]
      exact ⟨hfree j (List.mem_cons_of_mem _ hj) x hx,
        not_mem_queued (by rintro rfl; exact hkks hj) hx _⟩
    obtain ⟨s', h', hq', hw'⟩ := ih hks (hrep.of_sameLinks hw₁.sameLinks) hfree₁
      (by rw [hq₁, hw₁.voiceActive, List.length_append, List.length_map]; omega)
      (by rw [hw₁.idleTraps, hw₁.voiceActive]; exact hidle.imp_right fun h j hj => h j (List.mem_cons_of_mem _ hj))
    refine ⟨s', by simp only [List.foldlM_cons, h₁]; exact h', ?_, hw₁.trans hw'⟩
    rw [hq', hq₁, hw₁.voiceActive, List.flatMap_cons, List.append_assoc]

/-- From a state that holds lists, the frame's walk queues exactly the
    active voices of the three lists, in list order, with their lists; it
    never fills the queue or takes a lock twice, and the lists are still
    held after it.  It needs `FETFORCE1` to trap on idle voices unless
    every listed voice is active. -/
theorem vpFrameLists_queue {st : ApuVoices} {L : VoiceLists} (hrep : Represents st L) (irq : Bool)
    (hidle : IdleTraps st ∨ ∀ x ∈ L.all, voiceActive st x) :
    ∃ s', vpFrameLists ⟨st, [], irq⟩ = .ok s' ∧ s'.queue = L.activeQueue st ∧
      s'.queue.length ≤ mcpxHwMaxVoices ∧ Represents s'.apu L := by
  have hroom : ((List.finRange 3).flatMap fun k => (L.lists k).filter (voiceActive st)).length ≤
      mcpxHwMaxVoices := by
    refine Nat.le_trans (List.Sublist.length_le ?_) L.length_all_le
    exact List.Sublist.flatMap_right _ fun k _ => List.filter_sublist
  obtain ⟨s', h, hq, hw⟩ := foldlM_vpFrameList (List.nodup_finRange 3) (s := ⟨st, [], irq⟩) hrep
    (by simp) (by simpa using hroom)
    (hidle.imp_right fun h k _ x hx => h x (VoiceLists.mem_all.mpr ⟨k, hx⟩))
  refine ⟨s', h, by simpa [VoiceLists.activeQueue] using hq, ?_, hrep.of_sameLinks hw.sameLinks⟩
  rw [hq]
  simpa using hroom

/-- Registers at `0xFFFF` but for `FEAV`, whose list field names the 2D
    list, and the 2D top, `top2d`; voice records zero. -/
def frontEnd2d (top2d : UInt32) : ApuVoices :=
  ⟨fun r => if r = nvPapuFeav then 0x10000 else if r = nvPapuTvl2d then top2d else 0xFFFF, fun _ _ => 0⟩

/-! ### A voice met twice

    The walk takes each queued voice's lock and holds it until the
    dispatch, and `qemu_spin_lock` on a lock the thread already holds
    never returns. -/

/-- A visit to an active voice that is already queued takes its lock a
    second time. -/
theorem vpFrameVisit_relock {s : FrameState} {x : UInt32} (list : Nat) (hx : x.toNat < mcpxHwMaxVoices)
    (hact : voiceActive s.apu x) (hroom : s.queue.length < mcpxHwMaxVoices)
    (hheld : x.toNat ∈ s.queue.map VoiceWorkItem.voice) :
    vpFrameVisit s x.toUInt16.toNat list = .error .selfDeadlock := by
  have hx16 : x.toUInt16.toNat = x.toNat := toNat_toUInt16_of_lt (Nat.lt_trans hx (by decide))
  have ha : voiceGetMask s.apu x.toNat nvPavsVoiceParState nvPavsVoiceParStateActiveVoice ≠ 0 := by
    simpa [Xemu.Apu.voiceActive, hx16] using hact
  rw [vpFrameVisit, hx16, if_neg ha, voiceWorkEnqueue, if_pos hroom, if_pos hheld]

/-- An iteration at `c` whose visit stops the walk stops the loop. -/
theorem vpFrameListLoop_error {k : Fin 3} {s : FrameState} {c : UInt32} (fuel : Nat)
    (hc : s.apu.regs (voiceListRegs k).current = c) (hcnil : c ≠ 0xFFFF) {e : FrameAbort}
    (hvisit : vpFrameVisit { s with apu := { s.apu with
      regs := update s.apu.regs (voiceListRegs k).next (nextVoice s.apu c) } } c.toUInt16.toNat k = .error e) :
    vpFrameListLoop k (voiceListRegs k) (fuel + 1) s = .error e := by
  rw [vpFrameListLoop, if_neg (hc ▸ hcnil)]
  simp only [hc, nextVoice] at hvisit ⊢
  rw [hvisit]

/-- The loop at an active voice that is already queued stops there. -/
theorem vpFrameListLoop_relock {k : Fin 3} {s : FrameState} {c : UInt32} (fuel : Nat)
    (hc : s.apu.regs (voiceListRegs k).current = c) (hcnil : c ≠ 0xFFFF) (hlt : c.toNat < mcpxHwMaxVoices)
    (hact : voiceActive s.apu c) (hroom : s.queue.length < mcpxHwMaxVoices)
    (hheld : c.toNat ∈ s.queue.map VoiceWorkItem.voice) :
    vpFrameListLoop k (voiceListRegs k) (fuel + 1) s = .error .selfDeadlock := by
  -- the write to `next` changes neither the voice nor the queue
  have hw₁ : WalkFrame s.apu (FrameState.apu { s with apu := { s.apu with
      regs := update s.apu.regs (voiceListRegs k).next (nextVoice s.apu c) } }) :=
    (WalkFrame.refl _).setReg (next_mem_walkRegs k) _
  exact vpFrameListLoop_error fuel hc hcnil
    (vpFrameVisit_relock k hlt (by rwa [hw₁.voiceActive]) hroom hheld)

/-- `VOICE_ON` onto the top of list `k`: the voice takes the old top as its
    successor, becomes the top, and is started. -/
theorem voiceOn_top_spec {argument h : UInt32} {k : Fin 3}
    (hdef : argument &&& nv1ba0PioVoiceOnHandle = h) (hh : h.toNat < mcpxHwMaxVoices)
    (hlist : getMask (st.regs nvPapuFeav) nvPapuFeavLst ≠ nv1ba0PioSetAntecedentVoiceListInherit)
    (hk : voiceListIndex (getMask (st.regs nvPapuFeav) nvPapuFeavLst) = k) :
    ∃ st', voiceOn st argument = .ok st' ∧ st'.regs (voiceListRegs k).top = h ∧
      nextVoice st' h = st.regs (voiceListRegs k).top &&& 0xFFFF ∧ voiceActive st' h := by
  have h16 : h.toUInt16.toNat = h.toNat := toNat_toUInt16_of_lt (Nat.lt_trans hh (by decide))
  -- the state once the voice is linked in
  let linked := voiceSetMask st h.toNat nvPavsVoiceTarPitchLink nvPavsVoiceTarPitchLinkNextVoiceHandle
    (st.regs (voiceListRegs k).top)
  let st₁ : ApuVoices := { linked with regs := update st.regs (voiceListRegs k).top h }
  obtain ⟨st', hon, hsame, hact⟩ : ∃ st', voiceOn st argument = .ok st' ∧ SameLinks st₁ st' ∧
      voiceActive st' h := by
    unfold voiceOn
    simp only [hdef, ge_iff_le, UInt32.ofNat_toNat, if_neg (Nat.not_le.mpr hh), if_pos hlist,
      voiceListTop_eq, hk]
    refine ⟨_, rfl, ?_, ?_⟩
    · repeat' first
        | exact SameLinks.refl _
        | apply SameLinks.voiceOnEnvelope
        | apply SameLinks.setMask _ _ (by decide)
    · -- the last write sets the voice's ACTIVE bit
      simp only [Xemu.Apu.voiceActive, h16, voiceGetMask_voiceSetMask, and_self, if_true,
        getMask_setMask_self]
      decide
  refine ⟨st', hon, ?_, ?_, hact⟩
  · rw [hsame.top k]
    exact update_self _ _ _
  · rw [hsame.next]
    simp only [st₁, nextVoice_regs, linked, nextVoice_setLink, h16, if_true]

/-- A second `VOICE_ON` for the voice at the top of the list it is put
    on links the voice to itself: the next walk of that list meets it
    twice and takes its lock a second time, whatever the queue held,
    unless the queue is full first. -/
theorem voiceOn_top_again_deadlocks {argument : UInt32}
    (hh : (argument &&& nv1ba0PioVoiceOnHandle).toNat < mcpxHwMaxVoices)
    (hlist : getMask (st.regs nvPapuFeav) nvPapuFeavLst ≠ nv1ba0PioSetAntecedentVoiceListInherit)
    (htop : st.regs (voiceListTop (getMask (st.regs nvPapuFeav) nvPapuFeavLst)) =
      argument &&& nv1ba0PioVoiceOnHandle) :
    ∃ st', voiceOn st argument = .ok st' ∧ ∀ (queue : List VoiceWorkItem) (irq : Bool),
      queue.length + 1 < mcpxHwMaxVoices →
      vpFrameList ⟨st', queue, irq⟩ (voiceListIndex (getMask (st.regs nvPapuFeav) nvPapuFeavLst)) =
        .error .selfDeadlock := by
  obtain ⟨st', hon, hreg, hnext, hact⟩ := voiceOn_top_spec rfl hh hlist rfl
  refine ⟨st', hon, fun queue irq hq => ?_⟩
  set h := argument &&& nv1ba0PioVoiceOnHandle
  set k := voiceListIndex (getMask (st.regs nvPapuFeav) nvPapuFeavLst)
  have hnil : h ≠ 0xFFFF := fun he => absurd hh (by rw [he]; decide)
  -- the voice is its own successor
  have hself : nextVoice st' h = h := by
    rw [hnext, ← voiceListTop_eq, htop]
    exact and_ffff_of_lt (Nat.lt_trans hh (by decide))
  -- `d->regs[current] = d->regs[top]`
  let s₀ : FrameState := ⟨{ st' with
    regs := update st'.regs (voiceListRegs k).current (st'.regs (voiceListRegs k).top) }, queue, irq⟩
  have hs₀ : vpFrameList ⟨st', queue, irq⟩ k =
      vpFrameListLoop k (voiceListRegs k) (mcpxHwMaxVoices - 1 + 1) s₀ := rfl
  have hw₀ : WalkFrame st' s₀.apu := (WalkFrame.refl _).setReg (current_mem_walkRegs k) _
  have hcur₀ : s₀.apu.regs (voiceListRegs k).current = h := by
    simp only [s₀, update_self, hreg]
  have hact₀ : voiceActive s₀.apu h := by rwa [hw₀.voiceActive]
  rw [hs₀]
  by_cases hheld : h.toNat ∈ queue.map VoiceWorkItem.voice
  · -- held already: the first visit takes the lock again
    exact vpFrameListLoop_relock _ hcur₀ hnil hh hact₀ (by simp only [s₀]; omega) hheld
  · -- the first visit queues the voice, and the second, at the same voice, takes its lock again
    obtain ⟨s₁, hloop, hcur, hq₁, hw₁⟩ := vpFrameListLoop_step (mcpxHwMaxVoices - 1) hcur₀
      hnil hh hheld (fun _ => by simp only [s₀]; omega) (.inr hact₀)
    rw [hloop]
    exact vpFrameListLoop_relock _ (by rw [hcur, hw₀.nextVoice, hself]) hnil hh
      (by rwa [hw₁.voiceActive]) (by simp [hq₁, hact₀, s₀]; omega) (by simp [hq₁, hact₀])

theorem voiceOn_top_again_deadlocks_five :
    ∃ st', voiceOn (frontEnd2d 5) 5 = .ok st' ∧ ∀ (queue : List VoiceWorkItem) (irq : Bool),
      queue.length + 1 < mcpxHwMaxVoices →
      vpFrameList ⟨st', queue, irq⟩
          (voiceListIndex (getMask ((frontEnd2d 5).regs nvPapuFeav) nvPapuFeavLst)) =
        .error .selfDeadlock :=
  voiceOn_top_again_deadlocks (by decide) (by decide) (by decide)

/-! ### An idle voice the front end does not trap -/

/-- A visit to an inactive voice stops the walk unless `FETFORCE1` traps
    idle voices. -/
theorem vpFrameVisit_idle {s : FrameState} {x : UInt32} (list : Nat) (hx : x.toNat < mcpxHwMaxVoices)
    (hxa : voiceActive s.apu x = false) (htrap : ¬IdleTraps s.apu) :
    vpFrameVisit s x.toUInt16.toNat list = .error (.idleVoice x.toNat) := by
  have hx16 : x.toUInt16.toNat = x.toNat := toNat_toUInt16_of_lt (Nat.lt_trans hx (by decide))
  have ha : voiceGetMask s.apu x.toNat nvPavsVoiceParState nvPavsVoiceParStateActiveVoice = 0 := by
    simpa [Xemu.Apu.voiceActive, hx16] using hxa
  unfold IdleTraps at htrap
  rw [vpFrameVisit, hx16, if_pos ha, se2feIdleVoice, if_neg htrap]

/-- A list splits at its first element that fails a test. -/
theorem exists_split_first {α : Type _} {l : List α} {P : α → Bool} (h : ∃ x ∈ l, P x = false) :
    ∃ p x q, l = p ++ x :: q ∧ (∀ y ∈ p, P y) ∧ P x = false := by
  have hsome : (l.find? fun y => !P y).isSome :=
    List.find?_isSome.mpr (h.imp fun x hx => ⟨hx.1, by simp [hx.2]⟩)
  obtain ⟨x, hx⟩ := Option.isSome_iff_exists.mp hsome
  obtain ⟨hPx, p, q, rfl, hp⟩ := List.find?_eq_some_iff_append.mp hx
  exact ⟨p, x, q, rfl, fun y hy => by simpa using hp y hy, by simpa using hPx⟩

/-- The first element of a list that fails a test is unique. -/
theorem eq_of_split_first {α : Type _} {P : α → Bool} {p q p' q' : List α} {x x' : α}
    (h : p ++ x :: q = p' ++ x' :: q') (hp : ∀ y ∈ p, P y) (hx : P x = false)
    (hp' : ∀ y ∈ p', P y) (hx' : P x' = false) : x = x' := by
  have h₁ : (p ++ x :: q).find? (fun y => !P y) = some x :=
    List.find?_eq_some_iff_append.mpr ⟨by simp [hx], p, q, rfl, fun y hy => by simp [hp y hy]⟩
  have h₂ : (p' ++ x' :: q').find? (fun y => !P y) = some x' :=
    List.find?_eq_some_iff_append.mpr ⟨by simp [hx'], p', q', rfl, fun y hy => by simp [hp' y hy]⟩
  rw [h] at h₁
  exact Option.some.inj (h₁.symm.trans h₂)

/-- The walk of list `k` whose first inactive voice is `x`: the voices
    before it are queued, and at `x` the front end's assert stops the
    walk. -/
theorem vpFrameList_idle {L : VoiceLists} {k : Fin 3} {s : FrameState} (hrep : Represents s.apu L)
    {p q : List UInt32} {x : UInt32} (hl : L.lists k = p ++ x :: q)
    (hp : ∀ y ∈ p, voiceActive s.apu y) (hxa : voiceActive s.apu x = false) (htrap : ¬IdleTraps s.apu)
    (hfree : ∀ y ∈ p, y.toNat ∉ s.queue.map VoiceWorkItem.voice)
    (hroom : s.queue.length + p.length ≤ mcpxHwMaxVoices) :
    vpFrameList s k = .error (.idleVoice x.toNat) := by
  -- `d->regs[current] = d->regs[top]`
  let s₀ : FrameState := { s with apu := { s.apu with
    regs := update s.apu.regs (voiceListRegs k).current (s.apu.regs (voiceListRegs k).top) } }
  have hw₀ : WalkFrame s.apu s₀.apu := (WalkFrame.refl _).setReg (current_mem_walkRegs k) _
  -- the walk reaches `x` after `p`
  have hnd : (p ++ x :: q).Nodup := hl ▸ (hrep k).nodup
  have hlinks := hrep k
  rw [hl, Links, seg_append] at hlinks
  obtain ⟨m, hpm, hmx, hxnil, -⟩ := hlinks
  rw [hmx] at hpm hxnil
  have hlen : p.length < mcpxHwMaxVoices := by
    have := L.length_le k
    rw [hl, List.length_append, List.length_cons] at this
    omega
  have hxk : x ∈ L.lists k := hl ▸ List.mem_append_right _ List.mem_cons_self
  obtain ⟨s', hloop, hcur, -, hw'⟩ := vpFrameListLoop_seg (k := k) (s := s₀)
    (by rw [hw₀.nextVoice]; simpa [s₀] using hpm) hlen.le (hnd.sublist (List.sublist_append_left _ _))
    (fun y hy => L.handles k y (hl ▸ List.mem_append_left _ hy)) hfree
    (by rw [hw₀.voiceActive, List.filter_eq_self.mpr hp]; exact hroom) (.inr (by rwa [hw₀.voiceActive]))
  obtain ⟨n, hn⟩ : ∃ n, mcpxHwMaxVoices - p.length = n + 1 := ⟨mcpxHwMaxVoices - p.length - 1, by omega⟩
  have hw₁ := hw₀.trans hw'
  show vpFrameListLoop k (voiceListRegs k) mcpxHwMaxVoices s₀ = _
  rw [hloop, hn]
  refine vpFrameListLoop_error n hcur hxnil (vpFrameVisit_idle k (L.handles k x hxk) ?_ ?_)
  · rwa [WalkFrame.voiceActive ((WalkFrame.refl _).setReg (next_mem_walkRegs k) _), hw₁.voiceActive]
  · rwa [WalkFrame.idleTraps ((WalkFrame.refl _).setReg (next_mem_walkRegs k) _), hw₁.idleTraps]

/-- Unless `FETFORCE1` traps idle voices, the first listed voice in walk
    order that is not active stops the frame in the front end's assert for
    that voice: the walk reaches it, since the voices before it are all
    queued. -/
theorem vpFrameLists_idle_aborts {st : ApuVoices} {L : VoiceLists} (hrep : Represents st L) (irq : Bool)
    (htrap : ¬IdleTraps st) {p₀ q₀ : List UInt32} {x : UInt32} (hallx : L.all = p₀ ++ x :: q₀)
    (hpa : ∀ y ∈ p₀, voiceActive st y) (hx : voiceActive st x = false) :
    vpFrameLists ⟨st, [], irq⟩ = .error (.idleVoice x.toNat) := by
  -- the first list with an inactive voice, and its first inactive voice
  obtain ⟨ks₁, k, ks₂, hks, hbefore, hk⟩ := exists_split_first (l := List.finRange 3)
    (P := fun j => (L.lists j).all (voiceActive st)) (by
      have hxl : x ∈ L.all := hallx ▸ List.mem_append_right _ List.mem_cons_self
      obtain ⟨j, hxj⟩ := VoiceLists.mem_all.mp hxl
      exact ⟨j, List.mem_finRange j, by simpa using ⟨x, hxj, hx⟩⟩)
  obtain ⟨p, x₁, q, hl, hp, hxa⟩ := exists_split_first (l := L.lists k) (P := voiceActive st)
    (by simpa using hk)
  have hnd : (ks₁ ++ k :: ks₂).Nodup := hks ▸ List.nodup_finRange 3
  have hk₁ : k ∉ ks₁ := fun h => List.disjoint_of_nodup_append hnd h List.mem_cons_self
  -- the lists before `k` hold active voices only
  have hall : L.all = ks₁.flatMap L.lists ++ (L.lists k ++ ks₂.flatMap L.lists) := by
    rw [VoiceLists.all, hks, List.flatMap_append, List.flatMap_cons]
  -- `x₁` comes first in walk order as well, so it is `x`
  have hsplit : ks₁.flatMap L.lists ++ p ++ x₁ :: (q ++ ks₂.flatMap L.lists) = p₀ ++ x :: q₀ := by
    rw [← hallx, hall, hl]
    simp
  have hfirst : ∀ y ∈ ks₁.flatMap L.lists ++ p, voiceActive st y := by
    intro y hy
    rcases List.mem_append.mp hy with hy | hy
    · obtain ⟨j, hj, hyj⟩ := List.mem_flatMap.mp hy
      exact List.all_eq_true.mp (hbefore j hj) y hyj
    · exact hp y hy
  have hx₁ : x₁ = x := eq_of_split_first hsplit hfirst hxa hpa hx
  subst hx₁
  have hlen := congrArg List.length hall
  have hsub : (ks₁.flatMap fun j => (L.lists j).filter (voiceActive st)).length ≤
      (ks₁.flatMap L.lists).length :=
    (List.Sublist.flatMap_right _ fun j _ => List.filter_sublist).length_le
  have hpk : p.length + 1 ≤ (L.lists k).length := by simp [hl]
  have hall_le := L.length_all_le
  simp only [List.length_append] at hlen
  obtain ⟨s₁, h₁, hq₁, hw₁⟩ := foldlM_vpFrameList (hnd.sublist (List.sublist_append_left _ _))
    (s := ⟨st, [], irq⟩) hrep (by simp) (by simp only [List.length_nil]; omega)
    (.inr fun j hj y hy => List.all_eq_true.mp (hbefore j hj) y hy)
  -- their walk queued voices of other lists than `k`
  have hfree : ∀ y ∈ p, y.toNat ∉ s₁.queue.map VoiceWorkItem.voice := by
    intro y hy
    simp only [hq₁, List.nil_append, List.map_flatMap, List.mem_flatMap, not_exists, not_and]
    intro j hj
    exact not_mem_queued (by rintro rfl; exact hk₁ hj) (hl ▸ List.mem_append_left _ hy) _
  have hroom : s₁.queue.length + p.length ≤ mcpxHwMaxVoices := by
    simp only [hq₁, List.nil_append, List.length_flatMap, List.length_map] at hsub hlen ⊢
    omega
  rw [vpFrameLists, hks, List.foldlM_append, h₁]
  show (k :: ks₂).foldlM vpFrameList s₁ = _
  rw [List.foldlM_cons, vpFrameList_idle (hrep.of_sameLinks hw₁.sameLinks) hl
    (by rw [hw₁.voiceActive]; exact hp) (by rw [hw₁.voiceActive]; exact hxa)
    (by rwa [hw₁.idleTraps]) hfree hroom]
  rfl

/-! ### The lists over whole runs -/

/-- The workers' envelope steps keep the lists: induction on the queue. -/
theorem voiceWorkProcess_sameLinks {powf : ℚ → ℚ → ℚ} :
    ∀ {queue : List VoiceWorkItem} {st st' : ApuVoices},
      voiceWorkProcess powf st queue = .ok st' → SameLinks st st'
  | [], _, _, h => by
    cases h
    exact SameLinks.refl _
  | item :: queue, st, st', h => by
    rw [voiceWorkProcess] at h
    split at h
    · cases h
    · rename_i st₁ r h₁
      exact (voiceProcessEnvelopes_sameLinks h₁).trans (voiceWorkProcess_sameLinks h)

/-- A frame keeps the lists: the walk writes its own registers only, and
    the workers only step envelopes. -/
theorem mcpxApuVpFrame_sameLinks {powf : ℚ → ℚ → ℚ} {cfg : VpConfig}
    (h : mcpxApuVpFrame powf cfg st = .ok st') : SameLinks st st' := by
  obtain ⟨s, hwalk, hwork⟩ := mcpxApuVpFrame_ok h
  exact (vpFrameLists_walkFrame hwalk).sameLinks.trans (voiceWorkProcess_sameLinks hwork)

/-- Along every run of front-end methods and frames whose `VOICE_ON`s name
    voices on no list, the voice records and registers hold the lists and
    `FEAV` of the abstract run. -/
theorem voiceRun_abstracts {powf : ℚ → ℚ → ℚ} {cfg : VpConfig} {evs : List VoiceEvent} {A A' : FrontEnd}
    (hA : Abstracts st A) (hrun : A.run evs = some A') (h : voiceRun powf cfg st evs = .ok st') :
    Abstracts st' A' := by
  induction evs generalizing st A with
  | nil =>
    simp only [FrontEnd.run, Option.some.injEq] at hrun
    cases h
    exact hrun ▸ hA
  | cons ev evs ih =>
    simp only [FrontEnd.run, Option.bind_eq_some_iff] at hrun
    obtain ⟨A₁, hstep, hrun⟩ := hrun
    cases ev with
    | method m argument =>
      simp only [voiceRun] at h
      split at h
      · cases h
      rename_i st₁ h₁
      exact ih (feMethod_abstracts hA hstep h₁) hrun h
    | frame =>
      simp only [voiceRun] at h
      split at h
      · cases h
      rename_i st₁ h₁
      simp only [FrontEnd.step, Option.some.injEq] at hstep
      subst hstep
      exact ih (hA.of_sameLinks (mcpxApuVpFrame_sameLinks h₁)) hrun h

/-! ### The walk over whole runs -/

/-- The queue names each active listed voice once. -/
theorem VoiceLists.activeQueue_voices (L : VoiceLists) (st : ApuVoices) :
    (L.activeQueue st).map VoiceWorkItem.voice = (L.all.filter (voiceActive st)).map UInt32.toNat := by
  simp [VoiceLists.activeQueue, VoiceLists.all, List.map_flatMap, List.filter_flatMap, Function.comp_def]

theorem VoiceLists.nodup_activeQueue_voices (L : VoiceLists) (st : ApuVoices) :
    ((L.activeQueue st).map VoiceWorkItem.voice).Nodup := by
  rw [L.activeQueue_voices]
  exact (L.nodup.filter _).map fun _ _ h => UInt32.toNat_inj.mp h

/-- From a state that holds lists, the frame's walk goes through exactly
    when `FETFORCE1` traps idle voices or every listed voice is active;
    otherwise it stops in the front end's assert for the first inactive
    voice in walk order. -/
theorem vpFrameLists_ok_iff {st : ApuVoices} {L : VoiceLists} (hrep : Represents st L) (irq : Bool) :
    ((∃ s', vpFrameLists ⟨st, [], irq⟩ = .ok s') ↔ IdleTraps st ∨ ∀ x ∈ L.all, voiceActive st x) ∧
      (¬IdleTraps st → ∀ p x q, L.all = p ++ x :: q → (∀ y ∈ p, voiceActive st y) →
        voiceActive st x = false → vpFrameLists ⟨st, [], irq⟩ = .error (.idleVoice x.toNat)) := by
  refine ⟨⟨?_, ?_⟩, fun htrap p x q hall hp hx => vpFrameLists_idle_aborts hrep irq htrap hall hp hx⟩
  · rintro ⟨s', h⟩
    by_contra hno
    simp only [not_or, not_forall, Bool.not_eq_true] at hno
    obtain ⟨htrap, x, hx, hxa⟩ := hno
    -- the first inactive voice stops the walk
    obtain ⟨p, y, q, hall, hp, hya⟩ := exists_split_first (l := L.all) (P := voiceActive st) ⟨x, hx, hxa⟩
    rw [vpFrameLists_idle_aborts hrep irq htrap hall hp hya] at h
    cases h
  · intro hidle
    obtain ⟨s', h, -⟩ := vpFrameLists_queue hrep irq hidle
    exact ⟨s', h⟩

/-- Registers at `0xFFFF` but `FETFORCE1`, which traps nothing, and the 2D
    top, voice 5; voice 5 ends the list and is not active. -/
def idleVoice2d : ApuVoices :=
  ⟨fun r => if r = nvPapuTvl2d then 5 else if r = nvPapuFetforce1 then 0 else 0xFFFF,
    fun v o => if v = 5 ∧ o = nvPavsVoiceTarPitchLink then 0xFFFF else 0⟩

theorem represents_idleVoice2d :
    Represents idleVoice2d (VoiceLists.empty.linkTop 0 5 (by decide) (by decide)) := by
  intro k
  fin_cases k
  · exact ⟨rfl, by decide, rfl⟩
  · rfl
  · rfl

theorem vpFrameLists_ok_iff_idle :
    ((∃ s', vpFrameLists ⟨idleVoice2d, [], false⟩ = .ok s') ↔ IdleTraps idleVoice2d ∨
        ∀ x ∈ (VoiceLists.empty.linkTop 0 5 (by decide) (by decide)).all, voiceActive idleVoice2d x) ∧
      (¬IdleTraps idleVoice2d → ∀ p x q,
        (VoiceLists.empty.linkTop 0 5 (by decide) (by decide)).all = p ++ x :: q →
        (∀ y ∈ p, voiceActive idleVoice2d y) → voiceActive idleVoice2d x = false →
        vpFrameLists ⟨idleVoice2d, [], false⟩ = .error (.idleVoice x.toNat)) :=
  vpFrameLists_ok_iff represents_idleVoice2d false

/-- After any run of front-end methods and frames that the abstract
    lists follow, from a state that holds them, the voice records hold the
    lists of the abstract run, and the frame's walk queues exactly the
    listed voices that are active, list by list in list order: never more
    than the queue holds, and no voice twice, so no lock is taken twice. -/
theorem voiceRun_frame_queue {powf : ℚ → ℚ → ℚ} {cfg : VpConfig} {A A' : FrontEnd} {evs : List VoiceEvent}
    (hA : Abstracts st A) (hrun : A.run evs = some A') (h : voiceRun powf cfg st evs = .ok st') (irq : Bool)
    (hidle : IdleTraps st' ∨ ∀ x ∈ A'.lists.all, voiceActive st' x) :
    Abstracts st' A' ∧ ∃ s', vpFrameLists ⟨st', [], irq⟩ = .ok s' ∧ s'.queue = A'.lists.activeQueue st' ∧
      s'.queue.length ≤ mcpxHwMaxVoices ∧ (s'.queue.map VoiceWorkItem.voice).Nodup := by
  have hA' := voiceRun_abstracts hA hrun h
  obtain ⟨s', hwalk, hq, hlen, -⟩ := vpFrameLists_queue hA'.represents irq hidle
  exact ⟨hA', s', hwalk, hq, hlen, hq ▸ A'.lists.nodup_activeQueue_voices st'⟩

theorem voiceRun_frame_queue_voiceOn :
    ∃ st', voiceRun (fun _ _ => 0) ⟨1, fun _ => 0⟩ (frontEnd2d 0xFFFF) [.method .voiceOn 5, .frame] =
        .ok st' ∧
      Abstracts st' ⟨VoiceLists.empty.linkTop 0 5 (by decide) (by decide), 0x10000⟩ ∧
      ∃ s', vpFrameLists ⟨st', [], false⟩ = .ok s' ∧
        s'.queue = (VoiceLists.empty.linkTop 0 5 (by decide) (by decide)).activeQueue st' ∧
        s'.queue.length ≤ mcpxHwMaxVoices ∧ (s'.queue.map VoiceWorkItem.voice).Nodup :=
  ⟨_, rfl, @voiceRun_frame_queue (frontEnd2d 0xFFFF) _ (fun _ _ => 0) ⟨1, fun _ => 0⟩ ⟨VoiceLists.empty, 0x10000⟩
    ⟨VoiceLists.empty.linkTop 0 5 (by decide) (by decide), 0x10000⟩ [.method .voiceOn 5, .frame]
    ⟨represents_empty fun k => by fin_cases k <;> rfl, rfl⟩ rfl rfl false
    (.inl (by unfold IdleTraps; decide))⟩

end walk

end Xemu.Apu
