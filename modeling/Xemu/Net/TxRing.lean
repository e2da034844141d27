import Mathlib
import Xemu.Lib.Ring
import Xemu.Lib.Simulation
import Xemu.Net.Nvnet

/-! # The transmit ring refines a queue of fragments

    What the transmit side of the network controller is for: the driver
    hands over fragments, each a buffer of bytes that may end a packet,
    and the device sends the bytes of the fragments of each packet, in the
    order handed over, when the driver kicks it.  `TxQueue` is that
    abstract machine; its invariant `FifoInv` says that the packets sent
    and the bytes gathered are what the fragments taken so far make
    (`packetize`), and that the fragments not taken yet are the rest of
    those handed over, in order.

    The concrete side is the device of `Nvnet` with guest memory, and the
    driver that writes a fragment's bytes to the buffer of its next slot
    and then the slot's descriptor with `NV_TX_VALID`, unless that
    descriptor is still the device's.  `TxRefines` relates the two: the
    fragments queued are those of the valid descriptors from
    `TX_RING_NEXT_DESC_PHYS_ADDR` on, the bytes gathered are `tx_dma_buf`
    up to its offset, and the packets sent are those on the wire.  Every
    step keeps it (`step_refines`), so every run of the device is a run of
    the queue, aborts included.

    The ring's geometry is the driver's: the base and size written to the
    registers, a buffer per slot, apart from each other and from the ring.
-/

namespace Xemu.Net

open Function Xemu.Word Xemu.Memory Xemu.Ring Xemu.Sim

/-! ## Section 1: The queue of fragments -/

/-- A buffer handed to the device: its bytes, and whether it ends a packet. -/
structure Fragment where
  bytes : List UInt8
  last : Bool
  deriving DecidableEq, Repr

/-- The transmit side as the driver sees it: every fragment handed over,
    those not taken yet, the bytes of the packet being gathered, and the
    packets sent. -/
structure TxQueue where
  posted : List Fragment
  queue : List Fragment
  gathered : List UInt8
  sent : List (List UInt8)

/-- One fragment gathered; a last one sends the packet. -/
def gatherStep (acc : List (List UInt8) × List UInt8) (f : Fragment) : List (List UInt8) × List UInt8 :=
  if f.last then (acc.1 ++ [acc.2 ++ f.bytes], []) else (acc.1, acc.2 ++ f.bytes)

/-- The packets a list of fragments makes, and the bytes of an unfinished
    last one. -/
def packetize (fs : List Fragment) : List (List UInt8) × List UInt8 := fs.foldl gatherStep ([], [])

/-- A kick takes fragments from the front of the queue up to the first
    that ends a packet: the rest of the queue, the bytes gathered and the
    packet sent, if any.  A packet longer than `tx_dma_buf` aborts. -/
def kickLoop : List Fragment → List UInt8 → Except NvnetAbort (List Fragment × List UInt8 × List (List UInt8))
  | [], g => .ok ([], g, [])
  | f :: q, g =>
    if txAllocBufsize < g.length + f.bytes.length then .error .txDmaBuf
    else if f.last then .ok (q, [], [g ++ f.bytes])
    else kickLoop q (g ++ f.bytes)

/-- What the driver does to the transmit side. -/
inductive TxAction
  /-- hand over a fragment -/
  | post (f : Fragment)
  /-- write `TX_RX_CONTROL` with `KICK` -/
  | kick
  deriving DecidableEq, Repr

/-- A fragment goes in when fewer than `cap` wait and it fits a buffer of
    `bufSize`; otherwise the driver keeps it. -/
def TxQueue.post (cap bufSize : Nat) (A : TxQueue) (f : Fragment) : TxQueue :=
  if A.queue.length < cap ∧ 0 < f.bytes.length ∧ f.bytes.length ≤ bufSize then
    { A with posted := A.posted ++ [f], queue := A.queue ++ [f] }
  else A

def TxQueue.kick (A : TxQueue) : Except NvnetAbort TxQueue :=
  match kickLoop A.queue A.gathered with
  | .error e => .error e
  | .ok (q, g, p) => .ok { A with queue := q, gathered := g, sent := A.sent ++ p }

def TxQueue.step (cap bufSize : Nat) (A : TxQueue) : TxAction → Except NvnetAbort TxQueue
  | .post f => .ok (A.post cap bufSize f)
  | .kick => A.kick

/-- The packets sent and the bytes gathered are what the fragments taken
    make, and the fragments not taken are the rest of those handed over. -/
def FifoInv (A : TxQueue) : Prop :=
  ∃ consumed, A.posted = consumed ++ A.queue ∧ packetize consumed = (A.sent, A.gathered)

section queue

variable {A A' : TxQueue}

/-- What a kick takes is a prefix of the queue, gathered in order. -/
theorem kickLoop_ok {q q' : List Fragment} {g g' : List UInt8} {p : List (List UInt8)}
    (h : kickLoop q g = .ok (q', g', p)) (S : List (List UInt8)) :
    ∃ taken, q = taken ++ q' ∧ taken.foldl gatherStep (S, g) = (S ++ p, g') := by
  induction q generalizing g with
  | nil =>
    cases h
    exact ⟨[], rfl, by simp⟩
  | cons f q ih =>
    unfold kickLoop at h
    split_ifs at h with hover hlast
    · -- the last fragment of a packet: the packet goes out
      cases h
      exact ⟨[f], rfl, by simp [gatherStep, hlast]⟩
    · obtain ⟨taken, rfl, hfold⟩ := ih h
      exact ⟨f :: taken, rfl, by simpa [gatherStep, hlast] using hfold⟩

theorem FifoInv.post (h : FifoInv A) (cap bufSize : Nat) (f : Fragment) :
    FifoInv (A.post cap bufSize f) := by
  obtain ⟨consumed, hposted, hpack⟩ := h
  unfold TxQueue.post
  split_ifs
  · exact ⟨consumed, by simp [hposted], hpack⟩
  · exact ⟨consumed, hposted, hpack⟩

theorem FifoInv.kick (h : FifoInv A) (hA : A.kick = .ok A') : FifoInv A' := by
  obtain ⟨consumed, hposted, hpack⟩ := h
  unfold TxQueue.kick at hA
  split at hA
  · cases hA
  · rename_i q g p hloop
    cases hA
    obtain ⟨taken, hq, hfold⟩ := kickLoop_ok hloop A.sent
    refine ⟨consumed ++ taken, by simp [hposted, hq], ?_⟩
    rw [packetize, List.foldl_append, ← packetize, hpack, hfold]

theorem FifoInv.step (h : FifoInv A) {cap bufSize : Nat} {a : TxAction}
    (hstep : A.step cap bufSize a = .ok A') : FifoInv A' := by
  cases a with
  | post f =>
    cases hstep
    exact h.post cap bufSize f
  | kick => exact h.kick hstep

/-- Every run of the queue keeps `FifoInv`. -/
theorem FifoInv.run (h : FifoInv A) (cap bufSize : Nat) (acts : List TxAction)
    (hrun : run (TxQueue.step cap bufSize) A acts = .ok A') : FifoInv A' :=
  run_inv (fun _ _ _ hB hstep => hB.step hstep) acts h hrun

/-- The empty queue. -/
def TxQueue.empty : TxQueue := ⟨[], [], [], []⟩

theorem fifoInv_empty : FifoInv TxQueue.empty := ⟨[], rfl, rfl⟩

end queue

/-! ## Section 2: The ring in guest memory -/

/-- Where the driver keeps its transmit ring and the buffers of its slots:
    `size` descriptors from `base`, and for slot `i` a buffer of `bufSize`
    bytes at `buf i`, apart from the others and from the ring. -/
structure TxConfig where
  base : UInt32
  size : Nat
  buf : Nat → Nat
  bufSize : Nat
  size_pos : 0 < size
  size_lt : size < 2 ^ 16
  ring_fits : base.toNat + 8 * size < 2 ^ 32
  bufSize_lt : bufSize < 2 ^ 16
  buf_fits : ∀ i < size, buf i + bufSize ≤ 2 ^ 32
  buf_apart : ∀ i < size, ∀ j < size, i ≠ j → buf i + bufSize ≤ buf j ∨ buf j + bufSize ≤ buf i
  buf_off_ring : ∀ i < size, buf i + bufSize ≤ base.toNat ∨ base.toNat + 8 * size ≤ buf i

/-- The address of slot `i`'s descriptor. -/
def TxConfig.slotAddr (cfg : TxConfig) (i : Nat) : Nat := cfg.base.toNat + 8 * i

/-- The slot of a descriptor address. -/
def TxConfig.slotOf (cfg : TxConfig) (addr : UInt32) : Nat := (addr.toNat - cfg.base.toNat) / 8

/-- Slot `i` is the device's: its descriptor has `NV_TX_VALID`. -/
def txOwned (cfg : TxConfig) (mem : Nat → UInt8) (i : Nat) : Bool :=
  (loadRingDesc mem (cfg.slotAddr i)).flags &&& nvTxValid ≠ 0

/-- The fragment at slot `i`, as `dma_packet_from_guest` reads it. -/
def txFragment (cfg : TxConfig) (mem : Nat → UInt8) (i : Nat) : Fragment :=
  let desc := loadRingDesc mem (cfg.slotAddr i)
  let length : UInt16 := desc.length + 1
  ⟨load mem desc.bufferAddr.toNat length.toNat, desc.flags &&& nvTxLastpacket ≠ 0⟩

/-- Slot `i`'s descriptor is one the driver writes: it points at the slot's
    buffer, with a length within it. -/
def SlotWf (cfg : TxConfig) (mem : Nat → UInt8) (i : Nat) : Prop :=
  (loadRingDesc mem (cfg.slotAddr i)).bufferAddr.toNat = cfg.buf i ∧
    (loadRingDesc mem (cfg.slotAddr i)).length.toNat < cfg.bufSize

/-- The device's slot, where `TX_RING_NEXT_DESC_PHYS_ADDR` points. -/
def txSlot (cfg : TxConfig) (s : NvNetState) : Nat := cfg.slotOf (s.regs nvnetTxRingNextDescPhysAddr)

/-- The slots handed over and not taken: the valid descriptors from the
    device's slot on. -/
def txPending (cfg : TxConfig) (s : NvNetState) (mem : Nat → UInt8) : List Nat :=
  ownedRun (txOwned cfg mem) cfg.size (txSlot cfg s)

/-- The fragments queued at the device. -/
def ringQueue (cfg : TxConfig) (s : NvNetState) (mem : Nat → UInt8) : List Fragment :=
  (txPending cfg s mem).map (txFragment cfg mem)

/-- The bytes gathered in `tx_dma_buf`. -/
def dmaGathered (s : NvNetState) : List UInt8 := load s.txDmaBuf 0 s.txDmaBufOffset.toNat

/-- The slot after the pending ones, where the driver writes next. -/
def txEnd (cfg : TxConfig) (s : NvNetState) (mem : Nat → UInt8) : Nat :=
  (txSlot cfg s + (txPending cfg s mem).length) % cfg.size

/-- The registers the transmit ring reads. -/
def txRingRegs : List Nat :=
  [nvnetTxRingPhysAddr, nvnetRingSize, nvnetTransmitterControl, nvnetTxRingNextDescPhysAddr]

/-- The device and memory as a transmit ring: its registers as the driver
    set them, the device's slot on the ring, the slots handed over a run
    from it, each written by the driver, and `tx_dma_buf` within bounds. -/
structure TxRingInv (cfg : TxConfig) (s : NvNetState) (mem : Nat → UInt8) : Prop where
  base : s.regs nvnetTxRingPhysAddr = cfg.base
  size : (getTxRingSize s).toNat = cfg.size
  tx_enabled : txEnabled s = true
  link_up : linkUp s = true
  slot_lt : txSlot cfg s < cfg.size
  next : (s.regs nvnetTxRingNextDescPhysAddr).toNat = cfg.slotAddr (txSlot cfg s)
  contiguous : Contiguous (txOwned cfg mem) cfg.size (txSlot cfg s)
  wf : ∀ i ∈ txPending cfg s mem, SlotWf cfg mem i
  offset_le : s.txDmaBufOffset.toNat ≤ txAllocBufsize

/-- `mem'` agrees with `mem` on slot `i`'s descriptor and buffer. -/
def SlotKept (cfg : TxConfig) (mem mem' : Nat → UInt8) (i : Nat) : Prop :=
  load mem' (cfg.slotAddr i) 8 = load mem (cfg.slotAddr i) 8 ∧
    load mem' (cfg.buf i) cfg.bufSize = load mem (cfg.buf i) cfg.bufSize

section slots

variable {cfg : TxConfig} {mem mem' mem'' : Nat → UInt8} {i j : Nat}

theorem TxConfig.slotOf_eq {v : UInt32} {k : Nat} (h : v.toNat = cfg.slotAddr k) : cfg.slotOf v = k := by
  unfold TxConfig.slotOf
  unfold TxConfig.slotAddr at h
  omega

/-- Slots of the ring have their descriptors apart. -/
theorem slotAddr_apart (hij : i ≠ j) : cfg.slotAddr i + 8 ≤ cfg.slotAddr j ∨ cfg.slotAddr j + 8 ≤ cfg.slotAddr i := by
  unfold TxConfig.slotAddr
  omega

/-- A slot's descriptor lies within the ring, so off every buffer. -/
theorem slotAddr_off_buf (hi : i < cfg.size) (hj : j < cfg.size) :
    cfg.buf j + cfg.bufSize ≤ cfg.slotAddr i ∨ cfg.slotAddr i + 8 ≤ cfg.buf j := by
  unfold TxConfig.slotAddr
  rcases cfg.buf_off_ring j hj with h | h <;> omega

/-- The length `dma_packet_from_guest` reads at a slot the driver wrote. -/
theorem SlotWf.length_toNat (h : SlotWf cfg mem i) :
    ((loadRingDesc mem (cfg.slotAddr i)).length + 1).toNat = (loadRingDesc mem (cfg.slotAddr i)).length.toNat + 1 := by
  have hb := cfg.bufSize_lt
  have hl := h.2
  rw [UInt16.toNat_add]
  simp only [UInt16.reduceToNat]
  exact Nat.mod_eq_of_lt (by omega)

theorem SlotKept.trans (h : SlotKept cfg mem mem' i) (h' : SlotKept cfg mem' mem'' i) : SlotKept cfg mem mem'' i :=
  ⟨h'.1.trans h.1, h'.2.trans h.2⟩

theorem SlotKept.loadRingDesc (h : SlotKept cfg mem mem' i) :
    loadRingDesc mem' (cfg.slotAddr i) = loadRingDesc mem (cfg.slotAddr i) := by
  rw [Xemu.Net.loadRingDesc, Xemu.Net.loadRingDesc, h.1]

theorem SlotKept.txOwned (h : SlotKept cfg mem mem' i) : txOwned cfg mem' i = txOwned cfg mem i := by
  rw [Xemu.Net.txOwned, Xemu.Net.txOwned, h.loadRingDesc]

theorem SlotKept.slotWf (h : SlotKept cfg mem mem' i) (hwf : SlotWf cfg mem i) : SlotWf cfg mem' i := by
  rw [SlotWf, h.loadRingDesc]
  exact hwf

/-- A slot whose descriptor and buffer are kept holds the same fragment. -/
theorem SlotKept.txFragment (h : SlotKept cfg mem mem' i) (hwf : SlotWf cfg mem i) :
    txFragment cfg mem' i = txFragment cfg mem i := by
  have hlen := hwf.length_toNat
  simp only [Xemu.Net.txFragment, h.loadRingDesc, hwf.1, hlen]
  -- the fragment's bytes are a prefix of the slot's buffer
  rw [← take_load mem' (cfg.buf i) (show _ ≤ cfg.bufSize by have := hwf.2; omega), h.2, take_load]
  have := hwf.2
  omega

/-- A store that misses slot `i`'s descriptor and buffer keeps the slot. -/
theorem slotKept_storeList {a : Nat} {xs : List UInt8}
    (hdesc : cfg.slotAddr i + 8 ≤ a ∨ a + xs.length ≤ cfg.slotAddr i)
    (hbuf : cfg.buf i + cfg.bufSize ≤ a ∨ a + xs.length ≤ cfg.buf i) :
    SlotKept cfg mem (storeList mem a xs) i :=
  ⟨load_storeList_of_disjoint _ _ hdesc, load_storeList_of_disjoint _ _ hbuf⟩

/-- Writing another slot's descriptor keeps slot `i`. -/
theorem slotKept_storeRingDesc (hi : i < cfg.size) (hj : j < cfg.size) (hij : i ≠ j) (desc : RingDesc) :
    SlotKept cfg mem (storeRingDesc mem (cfg.slotAddr j) desc) i := by
  have hslot : cfg.slotAddr i + 8 ≤ cfg.slotAddr j ∨ cfg.slotAddr j + 8 ≤ cfg.slotAddr i := slotAddr_apart hij
  have hoff : cfg.buf i + cfg.bufSize ≤ cfg.slotAddr j ∨ cfg.slotAddr j + 8 ≤ cfg.buf i := slotAddr_off_buf hj hi
  exact slotKept_storeList (by simpa using hslot) (by simpa using hoff)

/-- Writing another slot's buffer keeps slot `i`. -/
theorem slotKept_storeList_buf (hi : i < cfg.size) (hj : j < cfg.size) (hij : i ≠ j) {xs : List UInt8}
    (hlen : xs.length ≤ cfg.bufSize) : SlotKept cfg mem (storeList mem (cfg.buf j) xs) i := by
  have hoff : cfg.buf j + cfg.bufSize ≤ cfg.slotAddr i ∨ cfg.slotAddr i + 8 ≤ cfg.buf j := slotAddr_off_buf hi hj
  have hapart := cfg.buf_apart i hi j hj hij
  exact slotKept_storeList (by omega) (by omega)

end slots

section regs

variable {cfg : TxConfig} {s t : NvNetState} {mem : Nat → UInt8} {addr : Nat} {k : Nat}

@[simp] theorem dmaGathered_setReg (addr : Nat) (v : UInt32) : dmaGathered (s.setReg addr v) = dmaGathered s := rfl

/-- `s'` agrees with `s` on what the transmit ring reads: its registers,
    the PHY's link, and `tx_dma_buf`. -/
def SameRing (s s' : NvNetState) : Prop :=
  (∀ r ∈ txRingRegs, s'.regs r = s.regs r) ∧ s'.phyRegs = s.phyRegs ∧
    s'.txDmaBufOffset = s.txDmaBufOffset ∧ s'.txDmaBuf = s.txDmaBuf

/-- A write to a register the ring does not read. -/
theorem sameRing_setReg (haddr : addr ∉ txRingRegs) (v : UInt32) : SameRing s (s.setReg addr v) := by
  refine ⟨fun r hr => ?_, rfl, rfl, rfl⟩
  rw [NvNetState.setReg_regs, update_of_ne fun (h : r = addr) => haddr (h ▸ hr)]

theorem SameRing.trans {u : NvNetState} (h : SameRing s t) (h' : SameRing t u) : SameRing s u :=
  ⟨fun r hr => (h'.1 r hr).trans (h.1 r hr), h'.2.1.trans h.2.1, h'.2.2.1.trans h.2.2.1,
    h'.2.2.2.trans h.2.2.2⟩

theorem SameRing.txSlot_eq (h : SameRing s t) : txSlot cfg t = txSlot cfg s := by
  rw [txSlot, txSlot, h.1 _ (by decide)]

theorem SameRing.ringQueue_eq (h : SameRing s t) : ringQueue cfg t mem = ringQueue cfg s mem := by
  rw [ringQueue, ringQueue, txPending, txPending, h.txSlot_eq]

theorem SameRing.txEnd_eq (h : SameRing s t) : txEnd cfg t mem = txEnd cfg s mem := by
  rw [txEnd, txEnd, txPending, txPending, h.txSlot_eq]

theorem SameRing.dmaGathered_eq (h : SameRing s t) : dmaGathered t = dmaGathered s := by
  rw [dmaGathered, dmaGathered, h.2.2.1, h.2.2.2]

/-- What the ring reads is all its invariant depends on. -/
theorem SameRing.inv (hs : SameRing s t) (h : TxRingInv cfg s mem) : TxRingInv cfg t mem := by
  have hslot : txSlot cfg t = txSlot cfg s := hs.txSlot_eq
  obtain ⟨hregs, hphy, hoff, -⟩ := hs
  refine ⟨?_, ?_, ?_, ?_, ?_, ?_, ?_, ?_, ?_⟩
  · rw [hregs _ (by decide)]
    exact h.base
  · rw [getTxRingSize, hregs _ (by decide)]
    exact h.size
  · rw [txEnabled, hregs _ (by decide)]
    exact h.tx_enabled
  · rw [linkUp, hphy]
    exact h.link_up
  · rw [hslot]
    exact h.slot_lt
  · rw [hslot, hregs _ (by decide)]
    exact h.next
  · rw [hslot]
    exact h.contiguous
  · rw [txPending, hslot]
    exact h.wf
  · rw [hoff]
    exact h.offset_le

theorem TxRingInv.fits (h : TxRingInv cfg s mem) :
    (s.regs nvnetTxRingPhysAddr).toNat + 8 * (getTxRingSize s).toNat < 2 ^ 32 := by
  rw [h.base, h.size]
  exact cfg.ring_fits

/-- The device's next descriptor is on the ring, so it becomes the current
    one as it is. -/
theorem updateCurrentTxRingDescAddr_of_inv (h : TxRingInv cfg s mem) :
    updateCurrentTxRingDescAddr s =
      (s.setReg nvnetTxRingCurrentDescPhysAddr (s.regs nvnetTxRingNextDescPhysAddr),
        s.regs nvnetTxRingNextDescPhysAddr) := by
  refine updateCurrentRingDescAddr_of_slot h.fits (k := txSlot cfg s) ?_ ?_
  · rw [h.size]
    exact h.slot_lt
  · rw [h.next, h.base]
    rfl

/-- From a current descriptor at slot `k` the device moves to slot `k + 1`,
    or back to the first. -/
theorem advanceNextTxRingDescAddr_of_slot (hbase : t.regs nvnetTxRingPhysAddr = cfg.base)
    (hsize : (getTxRingSize t).toNat = cfg.size) (hk : k < cfg.size)
    (hcur : (t.regs nvnetTxRingCurrentDescPhysAddr).toNat = cfg.slotAddr k) :
    ∃ v : UInt32, advanceNextTxRingDescAddr t = t.setReg nvnetTxRingNextDescPhysAddr v ∧
      v.toNat = cfg.slotAddr ((k + 1) % cfg.size) := by
  have hfit : (t.regs nvnetTxRingPhysAddr).toNat + 8 * (getTxRingSize t).toNat < 2 ^ 32 := by
    rw [hbase, hsize]
    exact cfg.ring_fits
  obtain ⟨v, hadv, hv⟩ : ∃ v : UInt32, advanceNextTxRingDescAddr t = t.setReg nvnetTxRingNextDescPhysAddr v ∧
      v.toNat = (t.regs nvnetTxRingPhysAddr).toNat + 8 * ((k + 1) % (getTxRingSize t).toNat) :=
    advanceNextRingDescAddr_of_slot hfit (by rw [hsize]; exact hk) (by rw [hcur, hbase]; rfl)
  refine ⟨v, hadv, ?_⟩
  rw [hv, hbase, hsize]
  rfl

end regs

/-! ## Section 3: One pass of the loop of `dma_packet_from_guest` -/

/-- The device once it has copied the buffer of `desc` to `tx_dma_buf`. -/
def txGather (s : NvNetState) (mem : Nat → UInt8) (desc : RingDesc) : NvNetState :=
  let length : UInt16 := desc.length + 1
  { s with
    txDmaBuf := copy s.txDmaBuf s.txDmaBufOffset.toNat mem desc.bufferAddr.toNat length.toNat
    txDmaBufOffset := s.txDmaBufOffset + length.toUInt32 }

/-- The device after a pass over the valid descriptor `desc` at
    `curDescAddr`: its buffer gathered, the packet sent if `desc` ends one,
    and the next descriptor found. -/
def txTake (s : NvNetState) (mem : Nat → UInt8) (curDescAddr : UInt32) (desc : RingDesc) : NvNetState :=
  let s := txGather (s.setReg nvnetTxRingCurrentDescPhysAddr curDescAddr) mem desc
  advanceNextTxRingDescAddr (if desc.flags &&& nvTxLastpacket ≠ 0 then { s with txDmaBufOffset := 0 } else s)

/-- Guest memory after the pass: the descriptor handed back. -/
def txHandBack (mem : Nat → UInt8) (curDescAddr : Nat) (desc : RingDesc) : Nat → UInt8 :=
  storeRingDesc mem curDescAddr { desc with flags := desc.flags &&& nvTxTakenMask }

section pass

variable {cfg : TxConfig} {s : NvNetState} {mem : Nat → UInt8} {a : UInt32} {k : Nat}

/-- One pass of the loop of `dma_packet_from_guest`, from the current
    descriptor `a`. -/
theorem dmaPacketFromGuestLoop_succ
    (hupd : updateCurrentTxRingDescAddr s = (s.setReg nvnetTxRingCurrentDescPhysAddr a, a)) (i : Nat) :
    dmaPacketFromGuestLoop (i + 1) s mem =
      if (loadRingDesc mem a.toNat).flags &&& nvTxValid = 0 then
        .ok (s.setReg nvnetTxRingCurrentDescPhysAddr a, mem, [])
      else if txAllocBufsize < (s.txDmaBufOffset + ((loadRingDesc mem a.toNat).length + 1).toUInt32).toNat then
        .error .txDmaBuf
      else if (loadRingDesc mem a.toNat).flags &&& nvTxLastpacket ≠ 0 then
        .ok (txTake s mem a (loadRingDesc mem a.toNat), txHandBack mem a.toNat (loadRingDesc mem a.toNat),
          [dmaGathered (txGather (s.setReg nvnetTxRingCurrentDescPhysAddr a) mem (loadRingDesc mem a.toNat))])
      else dmaPacketFromGuestLoop i (txTake s mem a (loadRingDesc mem a.toNat))
        (txHandBack mem a.toNat (loadRingDesc mem a.toNat)) := by
  rw [dmaPacketFromGuestLoop, hupd]
  simp only [NvNetState.setReg_txDmaBufOffset, txTake, txGather, txHandBack, dmaGathered]
  split_ifs <;> rfl

/-- `tx_dma_buf_offset + length` does not wrap. -/
theorem offset_add_toNat (hoff : s.txDmaBufOffset.toNat ≤ txAllocBufsize) (len : UInt16) :
    (s.txDmaBufOffset + len.toUInt32).toNat = s.txDmaBufOffset.toNat + len.toNat := by
  have hlen := len.toNat_lt
  have hbuf : txAllocBufsize < 2 ^ 16 := by decide
  rw [UInt32.toNat_add, UInt16.toNat_toUInt32, Nat.mod_eq_of_lt (by omega)]

/-- Gathering appends the descriptor's buffer to `tx_dma_buf`. -/
theorem dmaGathered_txGather (hoff : s.txDmaBufOffset.toNat ≤ txAllocBufsize) (desc : RingDesc) :
    dmaGathered (txGather s mem desc) =
      dmaGathered s ++ load mem desc.bufferAddr.toNat (desc.length + 1).toNat := by
  simp only [dmaGathered, txGather, offset_add_toNat hoff]
  exact load_copy_append _ _ _ _ _

/-- The pass from the device's slot: gathered, then moved to the next slot,
    with only the current and next registers written. -/
theorem txTake_spec (h : TxRingInv cfg s mem) (desc : RingDesc) :
    ∃ t : NvNetState, ∃ v : UInt32,
      txTake s mem (s.regs nvnetTxRingNextDescPhysAddr) desc = t.setReg nvnetTxRingNextDescPhysAddr v ∧
      v.toNat = cfg.slotAddr ((txSlot cfg s + 1) % cfg.size) ∧
      t.regs = update s.regs nvnetTxRingCurrentDescPhysAddr (s.regs nvnetTxRingNextDescPhysAddr) ∧
      t.phyRegs = s.phyRegs ∧
      dmaGathered t = if desc.flags &&& nvTxLastpacket ≠ 0 then []
        else dmaGathered s ++ load mem desc.bufferAddr.toNat (desc.length + 1).toNat := by
  set a := s.regs nvnetTxRingNextDescPhysAddr
  set g := txGather (s.setReg nvnetTxRingCurrentDescPhysAddr a) mem desc
  set t := if desc.flags &&& nvTxLastpacket ≠ 0 then { g with txDmaBufOffset := 0 } else g with ht
  have hregs : t.regs = update s.regs nvnetTxRingCurrentDescPhysAddr a := by
    rw [ht]
    split <;> rfl
  have hphy : t.phyRegs = s.phyRegs := by
    rw [ht]
    split <;> rfl
  have hgath : dmaGathered t = if desc.flags &&& nvTxLastpacket ≠ 0 then []
      else dmaGathered s ++ load mem desc.bufferAddr.toNat (desc.length + 1).toNat := by
    rw [ht]
    split
    · rfl
    · exact dmaGathered_txGather h.offset_le desc
  obtain ⟨v, hadv, hv⟩ := advanceNextTxRingDescAddr_of_slot (t := t) (k := txSlot cfg s)
    (by rw [hregs, update_of_ne (by decide)]; exact h.base)
    (by rw [getTxRingSize, hregs, update_of_ne (by decide)]; exact h.size) h.slot_lt
    (by rw [hregs, update_self]; exact h.next)
  exact ⟨t, v, hadv, hv, hregs, hphy, hgath⟩

theorem txSlot_txTake (h : TxRingInv cfg s mem) (desc : RingDesc) :
    txSlot cfg (txTake s mem (s.regs nvnetTxRingNextDescPhysAddr) desc) = (txSlot cfg s + 1) % cfg.size := by
  obtain ⟨t, v, htake, hv, -⟩ := txTake_spec h desc
  rw [htake, txSlot, NvNetState.setReg_regs, update_self]
  exact TxConfig.slotOf_eq hv

theorem txTake_regs (h : TxRingInv cfg s mem) (desc : RingDesc) {r : Nat}
    (hcur : r ≠ nvnetTxRingCurrentDescPhysAddr) (hnext : r ≠ nvnetTxRingNextDescPhysAddr) :
    (txTake s mem (s.regs nvnetTxRingNextDescPhysAddr) desc).regs r = s.regs r := by
  obtain ⟨t, v, htake, -, hregs, -⟩ := txTake_spec h desc
  rw [htake, NvNetState.setReg_regs, update_of_ne hnext, hregs, update_of_ne hcur]

theorem txTake_phyRegs (h : TxRingInv cfg s mem) (desc : RingDesc) :
    (txTake s mem (s.regs nvnetTxRingNextDescPhysAddr) desc).phyRegs = s.phyRegs := by
  obtain ⟨t, v, htake, -, -, hphy, -⟩ := txTake_spec h desc
  rw [htake]
  exact hphy

theorem dmaGathered_txTake (h : TxRingInv cfg s mem) (desc : RingDesc) :
    dmaGathered (txTake s mem (s.regs nvnetTxRingNextDescPhysAddr) desc) =
      if desc.flags &&& nvTxLastpacket ≠ 0 then []
      else dmaGathered s ++ load mem desc.bufferAddr.toNat (desc.length + 1).toNat := by
  obtain ⟨t, v, htake, -, -, -, hgath⟩ := txTake_spec h desc
  rw [htake, dmaGathered_setReg, hgath]

/-- Handing the descriptor of slot `k` back clears its flag and keeps the
    others. -/
theorem txOwned_txHandBack (hk : k < cfg.size) (desc : RingDesc) {i : Nat} (hi : i < cfg.size) :
    txOwned cfg (txHandBack mem (cfg.slotAddr k) desc) i = update (txOwned cfg mem) k false i := by
  by_cases hik : i = k
  · subst hik
    have hclear : desc.flags &&& nvTxTakenMask &&& nvTxValid = 0 := by
      rw [UInt16.and_assoc, show nvTxTakenMask &&& nvTxValid = 0 by decide, UInt16.and_zero]
    rw [update_self, txOwned, txHandBack, loadRingDesc_storeRingDesc]
    simp [hclear]
  · rw [update_of_ne hik]
    exact (slotKept_storeRingDesc hi hk hik _).txOwned

/-- The device's slot, when it is the device's, heads the pending run. -/
theorem txPending_eq_cons (h : TxRingInv cfg s mem) (hown : txOwned cfg mem (txSlot cfg s) = true) :
    txPending cfg s mem = txSlot cfg s :: (txPending cfg s mem).tail := by
  rw [txPending, ownedRun_of_owned h.slot_lt hown]
  rfl

/-- The slots pending after the device's own are kept when it hands its
    own back. -/
theorem slotKept_of_mem_tail (h : TxRingInv cfg s mem) (hown : txOwned cfg mem (txSlot cfg s) = true)
    {i : Nat} (hi : i ∈ (txPending cfg s mem).tail) (desc : RingDesc) :
    i ∈ txPending cfg s mem ∧ SlotKept cfg mem (txHandBack mem (cfg.slotAddr (txSlot cfg s)) desc) i := by
  have hcons := txPending_eq_cons h hown
  have hnd : (txPending cfg s mem).Nodup := nodup_ownedRun
  rw [hcons, List.nodup_cons] at hnd
  have hik : i ≠ txSlot cfg s := fun he => hnd.1 (he ▸ hi)
  have hmem : i ∈ txPending cfg s mem := hcons ▸ List.mem_cons_of_mem _ hi
  exact ⟨hmem, slotKept_storeRingDesc (lt_of_mem_ownedRun hmem) h.slot_lt hik _⟩

/-- After the pass the pending slots are the rest of the run. -/
theorem txPending_take (h : TxRingInv cfg s mem) (hown : txOwned cfg mem (txSlot cfg s) = true)
    (desc desc' : RingDesc) :
    txPending cfg (txTake s mem (s.regs nvnetTxRingNextDescPhysAddr) desc)
      (txHandBack mem (cfg.slotAddr (txSlot cfg s)) desc') = (txPending cfg s mem).tail := by
  rw [txPending, txSlot_txTake h, ownedRun_congr (fun i hi => txOwned_txHandBack h.slot_lt desc' hi),
    ownedRun_take h.slot_lt hown]
  rfl

/-- After the pass the fragments queued are the rest of the queue. -/
theorem ringQueue_take (h : TxRingInv cfg s mem) (hown : txOwned cfg mem (txSlot cfg s) = true)
    (desc desc' : RingDesc) :
    ringQueue cfg (txTake s mem (s.regs nvnetTxRingNextDescPhysAddr) desc)
      (txHandBack mem (cfg.slotAddr (txSlot cfg s)) desc') = (ringQueue cfg s mem).tail := by
  rw [ringQueue, txPending_take h hown, ringQueue, ← List.map_tail]
  apply List.map_congr_left
  intro i hi
  obtain ⟨hmem, hkept⟩ := slotKept_of_mem_tail h hown hi desc'
  exact hkept.txFragment (h.wf i hmem)

/-- The pass moves the device's slot on by the slot it took: the slot after
    the pending ones stays. -/
theorem txEnd_take (h : TxRingInv cfg s mem) (hown : txOwned cfg mem (txSlot cfg s) = true)
    (desc desc' : RingDesc) :
    txEnd cfg (txTake s mem (s.regs nvnetTxRingNextDescPhysAddr) desc)
      (txHandBack mem (cfg.slotAddr (txSlot cfg s)) desc') = txEnd cfg s mem := by
  have hlen := congrArg List.length (txPending_eq_cons h hown)
  rw [List.length_cons] at hlen
  rw [txEnd, txEnd, txSlot_txTake h, txPending_take h hown, Nat.mod_add_mod, hlen, Nat.add_right_comm,
    Nat.add_assoc]

/-- The pass keeps the ring. -/
theorem TxRingInv.take (h : TxRingInv cfg s mem) (hown : txOwned cfg mem (txSlot cfg s) = true)
    (desc desc' : RingDesc)
    (hgath : (dmaGathered (txTake s mem (s.regs nvnetTxRingNextDescPhysAddr) desc)).length ≤ txAllocBufsize) :
    TxRingInv cfg (txTake s mem (s.regs nvnetTxRingNextDescPhysAddr) desc)
      (txHandBack mem (cfg.slotAddr (txSlot cfg s)) desc') := by
  have hslot := txSlot_txTake h desc
  refine ⟨?_, ?_, ?_, ?_, ?_, ?_, ?_, ?_, ?_⟩
  · rw [txTake_regs h desc (by decide) (by decide)]
    exact h.base
  · rw [getTxRingSize, txTake_regs h desc (by decide) (by decide)]
    exact h.size
  · rw [txEnabled, txTake_regs h desc (by decide) (by decide)]
    exact h.tx_enabled
  · rw [linkUp, txTake_phyRegs h desc]
    exact h.link_up
  · rw [hslot]
    exact Nat.mod_lt _ cfg.size_pos
  · obtain ⟨t, v, htake, hv, -⟩ := txTake_spec h desc
    rw [hslot, htake, NvNetState.setReg_regs, update_self, hv]
  · -- the slot handed back leaves the run from the next slot contiguous
    rw [hslot]
    exact (h.contiguous.take h.slot_lt hown).congr fun i hi => txOwned_txHandBack h.slot_lt desc' hi
  · intro i hi
    rw [txPending_take h hown] at hi
    obtain ⟨hmem, hkept⟩ := slotKept_of_mem_tail h hown hi desc'
    exact hkept.slotWf (h.wf i hmem)
  · simpa [dmaGathered] using hgath

/-- A pass over the valid descriptor at the device's slot whose fragment
    fits in `tx_dma_buf`: the device takes the fragment, and sends the
    packet if the fragment ends one. -/
theorem dmaPacketFromGuestLoop_take (h : TxRingInv cfg s mem) (hown : txOwned cfg mem (txSlot cfg s) = true)
    (hfit : (dmaGathered s).length + (txFragment cfg mem (txSlot cfg s)).bytes.length ≤ txAllocBufsize)
    (i : Nat) :
    ∃ s' mem', TxRingInv cfg s' mem' ∧ ringQueue cfg s' mem' = (ringQueue cfg s mem).tail ∧
      txPending cfg s' mem' = (txPending cfg s mem).tail ∧ txEnd cfg s' mem' = txEnd cfg s mem ∧
      dmaGathered s' = (if (txFragment cfg mem (txSlot cfg s)).last then []
        else dmaGathered s ++ (txFragment cfg mem (txSlot cfg s)).bytes) ∧
      dmaPacketFromGuestLoop (i + 1) s mem =
        (if (txFragment cfg mem (txSlot cfg s)).last then
          .ok (s', mem', [dmaGathered s ++ (txFragment cfg mem (txSlot cfg s)).bytes])
        else dmaPacketFromGuestLoop i s' mem') := by
  have hpass : dmaPacketFromGuestLoop (i + 1) s mem = _ :=
    dmaPacketFromGuestLoop_succ (updateCurrentTxRingDescAddr_of_inv h) i
  rw [h.next] at hpass
  generalize hdesc : loadRingDesc mem (cfg.slotAddr (txSlot cfg s)) = desc at hpass
  have hfrag : txFragment cfg mem (txSlot cfg s) =
      ⟨load mem desc.bufferAddr.toNat (desc.length + 1).toNat, desc.flags &&& nvTxLastpacket ≠ 0⟩ := by
    rw [← hdesc]
    rfl
  have hvalid : ¬desc.flags &&& nvTxValid = 0 := by
    rw [← hdesc]
    simpa [txOwned] using hown
  rw [hfrag] at hfit ⊢
  have hover : ¬txAllocBufsize < (s.txDmaBufOffset + (desc.length + 1).toUInt32).toNat := by
    rw [offset_add_toNat h.offset_le]
    simpa [dmaGathered] using hfit
  have hgath := dmaGathered_txTake h desc
  refine ⟨txTake s mem (s.regs nvnetTxRingNextDescPhysAddr) desc,
    txHandBack mem (cfg.slotAddr (txSlot cfg s)) desc, h.take hown desc desc ?_, ringQueue_take h hown desc desc,
    txPending_take h hown desc desc, txEnd_take h hown desc desc, ?_, ?_⟩
  · rw [hgath]
    split_ifs
    · simp
    · simpa using hfit
  · rw [hgath]
    simp only [decide_eq_true_eq]
  · rw [hpass, if_neg hvalid, if_neg hover, dmaGathered_txGather (s := s.setReg _ _) h.offset_le,
      dmaGathered_setReg]
    simp only [decide_eq_true_eq]

/-- A pass over the valid descriptor at the device's slot whose fragment
    would overflow `tx_dma_buf` aborts. -/
theorem dmaPacketFromGuestLoop_overflow (h : TxRingInv cfg s mem) (hown : txOwned cfg mem (txSlot cfg s) = true)
    (hover : txAllocBufsize < (dmaGathered s).length + (txFragment cfg mem (txSlot cfg s)).bytes.length)
    (i : Nat) : dmaPacketFromGuestLoop (i + 1) s mem = .error .txDmaBuf := by
  rw [dmaPacketFromGuestLoop_succ (updateCurrentTxRingDescAddr_of_inv h) i, h.next]
  have hvalid : ¬(loadRingDesc mem (cfg.slotAddr (txSlot cfg s))).flags &&& nvTxValid = 0 := by
    simpa [txOwned] using hown
  have hover' : txAllocBufsize < (s.txDmaBufOffset +
      ((loadRingDesc mem (cfg.slotAddr (txSlot cfg s))).length + 1).toUInt32).toNat := by
    rw [offset_add_toNat h.offset_le]
    simpa [dmaGathered, txFragment] using hover
  rw [if_neg hvalid, if_pos hover']

/-- A pass at a slot that is not the device's ends the loop. -/
theorem dmaPacketFromGuestLoop_idle (h : TxRingInv cfg s mem) (hown : txOwned cfg mem (txSlot cfg s) = false)
    (i : Nat) :
    dmaPacketFromGuestLoop (i + 1) s mem =
      .ok (s.setReg nvnetTxRingCurrentDescPhysAddr (s.regs nvnetTxRingNextDescPhysAddr), mem, []) := by
  rw [dmaPacketFromGuestLoop_succ (updateCurrentTxRingDescAddr_of_inv h) i, h.next]
  have hnot : (loadRingDesc mem (cfg.slotAddr (txSlot cfg s))).flags &&& nvTxValid = 0 := by
    simpa [txOwned] using hown
  rw [if_pos hnot]

end pass

/-! ## Section 4: The loop takes what `kickLoop` takes -/

/-- What a run of the loop from a state whose ring ends at `e` is to
    `kickLoop`: the ring kept and still ending at `e`, and the queue, the
    bytes gathered and the packets sent those `kickLoop` gives. -/
def LoopRel (cfg : TxConfig) (e : Nat) (r : NvNetState × (Nat → UInt8) × List (List UInt8))
    (q : List Fragment × List UInt8 × List (List UInt8)) : Prop :=
  TxRingInv cfg r.1 r.2.1 ∧ txEnd cfg r.1 r.2.1 = e ∧ (ringQueue cfg r.1 r.2.1, dmaGathered r.1, r.2.2) = q

section loop

variable {cfg : TxConfig}

theorem ringQueue_eq_cons {s : NvNetState} {mem : Nat → UInt8} (h : TxRingInv cfg s mem)
    (hown : txOwned cfg mem (txSlot cfg s) = true) :
    ringQueue cfg s mem = txFragment cfg mem (txSlot cfg s) :: (ringQueue cfg s mem).tail := by
  rw [ringQueue, txPending_eq_cons h hown]
  rfl

/-- The loop of `dma_packet_from_guest`, given at least as many passes as
    there are pending slots, does what `kickLoop` does to the queue: by
    induction on the passes, one descriptor taken at each. -/
theorem dmaPacketFromGuestLoop_refines (i : Nat) :
    ∀ {s : NvNetState} {mem : Nat → UInt8}, TxRingInv cfg s mem → (txPending cfg s mem).length ≤ i →
      ExceptRel (LoopRel cfg (txEnd cfg s mem)) (dmaPacketFromGuestLoop i s mem)
        (kickLoop (ringQueue cfg s mem) (dmaGathered s)) := by
  induction i with
  | zero =>
    intro s mem h hlen
    have hnil : ringQueue cfg s mem = [] := by
      simpa [ringQueue] using hlen
    rw [hnil]
    exact .ok ⟨h, rfl, by simp [hnil]⟩
  | succ i ih =>
    intro s mem h hlen
    cases hown : txOwned cfg mem (txSlot cfg s) with
    | false =>
      -- nothing pending: the loop stops at the device's slot
      have hnil : ringQueue cfg s mem = [] := by
        simp [ringQueue, txPending, ownedRun_of_not h.slot_lt hown]
      have hsame : SameRing s (s.setReg nvnetTxRingCurrentDescPhysAddr (s.regs nvnetTxRingNextDescPhysAddr)) :=
        sameRing_setReg (by decide) _
      rw [dmaPacketFromGuestLoop_idle h hown, hnil]
      exact .ok ⟨hsame.inv h, hsame.txEnd_eq, by simp [hsame.ringQueue_eq, hnil]⟩
    | true =>
      rw [ringQueue_eq_cons h hown, kickLoop]
      split_ifs with hover hlast
      · rw [dmaPacketFromGuestLoop_overflow h hown hover]
        exact .error _
      · -- the fragment ends a packet: the loop stops after it
        obtain ⟨s', mem', h', hq, -, hend, hgath, hloop⟩ :=
          dmaPacketFromGuestLoop_take h hown (not_lt.mp hover) i
        rw [hloop, if_pos hlast]
        exact .ok ⟨h', hend, by simp [hq, hgath, hlast]⟩
      · obtain ⟨s', mem', h', hq, hpend, hend, hgath, hloop⟩ :=
          dmaPacketFromGuestLoop_take h hown (not_lt.mp hover) i
        have hlen' : (txPending cfg s' mem').length ≤ i := by
          rw [hpend, List.length_tail]
          omega
        rw [hloop, if_neg hlast]
        have hrel := ih h' hlen'
        rw [hq, hgath, if_neg hlast, hend] at hrel
        exact hrel

end loop

/-! ## Section 5: The driver and the device -/

/-- The transmit side: the device, guest memory, the driver's next slot,
    and the packets on the wire. -/
structure TxSystem where
  dev : NvNetState
  mem : Nat → UInt8
  tail : Nat
  wire : List (List UInt8)

/-- The descriptor the driver writes for `f` in slot `j`: the slot's
    buffer, the length less one, and `NV_TX_VALID`, with
    `NV_TX_LASTPACKET` when `f` ends a packet. -/
def postDesc (cfg : TxConfig) (j : Nat) (f : Fragment) : RingDesc :=
  ⟨UInt32.ofNat (cfg.buf j), UInt16.ofNat (f.bytes.length - 1),
    if f.last then nvTxValid ||| nvTxLastpacket else nvTxValid⟩

/-- Guest memory once the driver has written `f` to slot `j`: the bytes
    first, then the descriptor. -/
def postMem (cfg : TxConfig) (mem : Nat → UInt8) (j : Nat) (f : Fragment) : Nat → UInt8 :=
  storeRingDesc (storeList mem (cfg.buf j) f.bytes) (cfg.slotAddr j) (postDesc cfg j f)

/-- The driver hands `f` over in its next slot, unless that slot is still
    the device's or `f` does not fit the slot's buffer. -/
def driverPost (cfg : TxConfig) (C : TxSystem) (f : Fragment) : TxSystem :=
  if txOwned cfg C.mem C.tail = false ∧ 0 < f.bytes.length ∧ f.bytes.length ≤ cfg.bufSize then
    { C with mem := postMem cfg C.mem C.tail f, tail := (C.tail + 1) % cfg.size }
  else C

/-- The driver writes `TX_RX_CONTROL` with `KICK`; the packets sent go on
    the wire. -/
def driverKick (C : TxSystem) : Except NvnetAbort TxSystem :=
  match nvnetMmioWrite C.dev C.mem nvnetTxRxControl nvnetTxRxControlKick with
  | .error e => .error e
  | .ok (dev, mem, sent) => .ok { C with dev := dev, mem := mem, wire := C.wire ++ sent }

def TxSystem.step (cfg : TxConfig) (C : TxSystem) : TxAction → Except NvnetAbort TxSystem
  | .post f => .ok (driverPost cfg C f)
  | .kick => driverKick C

/-- The device and memory seen as the queue of fragments: the ring kept,
    the fragments queued those of the pending slots, the bytes gathered
    those of `tx_dma_buf`, the packets sent those on the wire, and the
    driver's next slot the one after the pending ones. -/
structure TxRefines (cfg : TxConfig) (C : TxSystem) (A : TxQueue) : Prop where
  inv : TxRingInv cfg C.dev C.mem
  queue : A.queue = ringQueue cfg C.dev C.mem
  gathered : A.gathered = dmaGathered C.dev
  sent : A.sent = C.wire
  tail : C.tail = txEnd cfg C.dev C.mem

section post

variable {cfg : TxConfig} {s : NvNetState} {mem : Nat → UInt8} {j : Nat} {f : Fragment}

theorem postDesc_valid (cfg : TxConfig) (j : Nat) (f : Fragment) :
    (postDesc cfg j f).flags &&& nvTxValid ≠ 0 := by
  show (if f.last then nvTxValid ||| nvTxLastpacket else nvTxValid) &&& nvTxValid ≠ 0
  cases f.last <;> decide

theorem postDesc_last (cfg : TxConfig) (j : Nat) (f : Fragment) :
    decide ((postDesc cfg j f).flags &&& nvTxLastpacket ≠ 0) = f.last := by
  show decide ((if f.last then nvTxValid ||| nvTxLastpacket else nvTxValid) &&& nvTxLastpacket ≠ 0) = f.last
  cases f.last <;> decide

theorem postDesc_length (hpos : 0 < f.bytes.length) (hlen : f.bytes.length ≤ cfg.bufSize) :
    ((postDesc cfg j f).length + 1).toNat = f.bytes.length := by
  have hb := cfg.bufSize_lt
  rw [postDesc, UInt16.toNat_add, UInt16.toNat_ofNat']
  simp only [UInt16.reduceToNat]
  omega

theorem postDesc_bufferAddr (hj : j < cfg.size) (hpos : 0 < cfg.bufSize) :
    (postDesc cfg j f).bufferAddr.toNat = cfg.buf j := by
  have hfit := cfg.buf_fits j hj
  rw [postDesc, UInt32.toNat_ofNat']
  exact Nat.mod_eq_of_lt (by omega)

/-- The driver's write leaves the other slots as they were. -/
theorem slotKept_postMem {i : Nat} (hi : i < cfg.size) (hj : j < cfg.size) (hij : i ≠ j)
    (hlen : f.bytes.length ≤ cfg.bufSize) : SlotKept cfg mem (postMem cfg mem j f) i :=
  (slotKept_storeList_buf hi hj hij hlen).trans (slotKept_storeRingDesc hi hj hij _)

theorem loadRingDesc_postMem (cfg : TxConfig) (mem : Nat → UInt8) (j : Nat) (f : Fragment) :
    loadRingDesc (postMem cfg mem j f) (cfg.slotAddr j) = postDesc cfg j f :=
  loadRingDesc_storeRingDesc _ _ _

/-- The slot written holds the fragment the driver wrote. -/
theorem txFragment_postMem (hj : j < cfg.size) (hpos : 0 < f.bytes.length) (hlen : f.bytes.length ≤ cfg.bufSize) :
    txFragment cfg (postMem cfg mem j f) j = f := by
  have hoff : cfg.buf j + cfg.bufSize ≤ cfg.slotAddr j ∨ cfg.slotAddr j + 8 ≤ cfg.buf j := slotAddr_off_buf hj hj
  have hbytes : load (postMem cfg mem j f) (cfg.buf j) f.bytes.length = f.bytes := by
    rw [postMem, storeRingDesc, load_storeList_of_disjoint _ _ (by simp; omega), load_storeList_self]
  simp only [txFragment, loadRingDesc_postMem, postDesc_bufferAddr hj (by omega), postDesc_length hpos hlen,
    hbytes, postDesc_last]

theorem slotWf_postMem (hj : j < cfg.size) (hpos : 0 < f.bytes.length) (hlen : f.bytes.length ≤ cfg.bufSize) :
    SlotWf cfg (postMem cfg mem j f) j := by
  have hl := postDesc_length (j := j) hpos hlen
  have hb := cfg.bufSize_lt
  have hd := (postDesc cfg j f).length.toNat_lt
  rw [UInt16.toNat_add] at hl
  simp only [UInt16.reduceToNat] at hl
  refine ⟨by rw [loadRingDesc_postMem, postDesc_bufferAddr hj (by omega)], ?_⟩
  rw [loadRingDesc_postMem]
  omega

theorem txOwned_postMem (hj : j < cfg.size) (hlen : f.bytes.length ≤ cfg.bufSize) {i : Nat} (hi : i < cfg.size) :
    txOwned cfg (postMem cfg mem j f) i = update (txOwned cfg mem) j true i := by
  by_cases hij : i = j
  · subst hij
    rw [update_self, txOwned, loadRingDesc_postMem]
    simpa using postDesc_valid cfg i f
  · rw [update_of_ne hij]
    exact (slotKept_postMem hi hj hij hlen).txOwned

/-- The driver's next slot is free exactly when the ring is not full. -/
theorem txOwned_txEnd_iff (h : TxRingInv cfg s mem) :
    txOwned cfg mem (txEnd cfg s mem) = false ↔ (txPending cfg s mem).length < cfg.size := by
  constructor
  · intro hfree
    by_contra hfull
    -- a full ring ends where it starts, at a slot the device owns
    have hlen : (txPending cfg s mem).length = cfg.size := le_antisymm length_ownedRun_le (not_lt.mp hfull)
    have hown := owned_of_length_eq h.slot_lt hlen
    rw [txEnd, hlen, Nat.add_mod_right, Nat.mod_eq_of_lt h.slot_lt] at hfree
    rw [hfree] at hown
    exact Bool.false_ne_true hown
  · exact not_owned_after_run

theorem txEnd_lt : txEnd cfg s mem < cfg.size := Nat.mod_lt _ cfg.size_pos

/-- The driver's write puts its slot at the end of the pending run. -/
theorem txPending_postMem (h : TxRingInv cfg s mem) (hm : (txPending cfg s mem).length < cfg.size)
    (hlen : f.bytes.length ≤ cfg.bufSize) :
    txPending cfg s (postMem cfg mem (txEnd cfg s mem) f) = txPending cfg s mem ++ [txEnd cfg s mem] := by
  rw [txPending, ownedRun_congr fun i hi => txOwned_postMem txEnd_lt hlen hi]
  exact ownedRun_give h.contiguous hm

/-- A pending slot is the device's, so not the free slot after the run. -/
theorem ne_txEnd_of_mem (h : TxRingInv cfg s mem) (hm : (txPending cfg s mem).length < cfg.size) {i : Nat}
    (hi : i ∈ txPending cfg s mem) : i ≠ txEnd cfg s mem := by
  intro he
  have hown := owned_of_mem_ownedRun hi
  rw [he, (txOwned_txEnd_iff h).mpr hm] at hown
  exact Bool.false_ne_true hown

/-- The driver's write leaves every pending slot as it was. -/
theorem slotKept_of_mem_txPending (h : TxRingInv cfg s mem) (hm : (txPending cfg s mem).length < cfg.size)
    (hlen : f.bytes.length ≤ cfg.bufSize) {i : Nat} (hi : i ∈ txPending cfg s mem) :
    SlotKept cfg mem (postMem cfg mem (txEnd cfg s mem) f) i :=
  slotKept_postMem (lt_of_mem_ownedRun hi) txEnd_lt (ne_txEnd_of_mem h hm hi) hlen

theorem TxRingInv.post (h : TxRingInv cfg s mem) (hm : (txPending cfg s mem).length < cfg.size)
    (hpos : 0 < f.bytes.length) (hlen : f.bytes.length ≤ cfg.bufSize) :
    TxRingInv cfg s (postMem cfg mem (txEnd cfg s mem) f) := by
  refine ⟨h.base, h.size, h.tx_enabled, h.link_up, h.slot_lt, h.next, ?_, ?_, h.offset_le⟩
  · exact (h.contiguous.give hm).congr fun i hi => txOwned_postMem txEnd_lt hlen hi
  · intro i hi
    rw [txPending_postMem h hm hlen, List.mem_append, List.mem_singleton] at hi
    rcases hi with hi | rfl
    · exact (slotKept_of_mem_txPending h hm hlen hi).slotWf (h.wf i hi)
    · exact slotWf_postMem txEnd_lt hpos hlen

theorem ringQueue_postMem (h : TxRingInv cfg s mem) (hm : (txPending cfg s mem).length < cfg.size)
    (hpos : 0 < f.bytes.length) (hlen : f.bytes.length ≤ cfg.bufSize) :
    ringQueue cfg s (postMem cfg mem (txEnd cfg s mem) f) = ringQueue cfg s mem ++ [f] := by
  -- the pending slots keep their fragments
  have hkept : (txPending cfg s mem).map (txFragment cfg (postMem cfg mem (txEnd cfg s mem) f)) =
      (txPending cfg s mem).map (txFragment cfg mem) := by
    apply List.map_congr_left
    intro i hi
    exact (slotKept_of_mem_txPending h hm hlen hi).txFragment (h.wf i hi)
  rw [ringQueue, txPending_postMem h hm hlen, List.map_append, List.map_singleton,
    txFragment_postMem txEnd_lt hpos hlen, hkept, ringQueue]

theorem txEnd_postMem (h : TxRingInv cfg s mem) (hm : (txPending cfg s mem).length < cfg.size)
    (hlen : f.bytes.length ≤ cfg.bufSize) :
    txEnd cfg s (postMem cfg mem (txEnd cfg s mem) f) = (txEnd cfg s mem + 1) % cfg.size := by
  rw [txEnd, txPending_postMem h hm hlen, List.length_append, List.length_singleton, txEnd, Nat.mod_add_mod,
    Nat.add_assoc]

end post

/-! ## Section 6: The device refines the queue -/

/-- A write of `KICK` to `TX_RX_CONTROL` runs `dma_packet_from_guest` and
    nothing else. -/
theorem nvnetMmioWrite_kick (s : NvNetState) (mem : Nat → UInt8) :
    nvnetMmioWrite s mem nvnetTxRxControl nvnetTxRxControlKick =
      dmaPacketFromGuest (setRegWithMask s nvnetTxRxControl nvnetTxRxControlKick (~~~nvnetTxRxControlIdle)) mem := by
  unfold nvnetMmioWrite
  simp only [show ¬nvnetTxRxControl % 4 ≠ 0 by decide, show ¬mmioSize ≤ nvnetTxRxControl by decide,
    show ¬nvnetTxRxControl = nvnetMdioAddr by decide,
    show ¬nvnetTxRxControlKick &&& nvnetTxRxControlReset ≠ 0 by decide,
    show ¬nvnetTxRxControlKick &&& nvnetTxRxControlBit1 ≠ 0 by decide,
    show ¬nvnetTxRxControlKick = 0 by decide, if_true, if_false]
  rcases dmaPacketFromGuest _ mem with e | ⟨s', mem', sent⟩ <;> rfl

/-- The write of `KICK` leaves `BIT2` clear, so the DMA is enabled. -/
theorem dmaEnabled_kick (s : NvNetState) :
    dmaEnabled (setRegWithMask s nvnetTxRxControl nvnetTxRxControlKick (~~~nvnetTxRxControlIdle)) = true := by
  simp only [dmaEnabled, setRegWithMask, NvNetState.setReg_regs, update_self,
    and_or_and_eq_zero _ _ _ _
      (by decide : (nvnetTxRxControlKick ||| ~~~~~~nvnetTxRxControlIdle) &&& nvnetTxRxControlBit2 = 0)
      (by decide : nvnetTxRxControlKick &&& ~~~nvnetTxRxControlIdle &&& nvnetTxRxControlBit2 = 0)]
  rfl

theorem sameRing_setDmaIdle (s : NvNetState) (idle : Bool) : SameRing s (setDmaIdle s idle) := by
  unfold setDmaIdle orReg andReg
  split <;> exact sameRing_setReg (by decide) _

theorem sameRing_setIntrStatus (s : NvNetState) (status : UInt32) : SameRing s (setIntrStatus s status) :=
  sameRing_setReg (by decide) _

section refines

variable {cfg : TxConfig} {C : TxSystem} {A : TxQueue}

/-- The driver's slot is free exactly when the queue is not full. -/
theorem TxRefines.free_iff (h : TxRefines cfg C A) :
    txOwned cfg C.mem C.tail = false ↔ A.queue.length < cfg.size := by
  rw [h.tail, h.queue, ringQueue, List.length_map]
  exact txOwned_txEnd_iff h.inv

/-- A post appends the fragment to the queue, or leaves both sides as they
    are. -/
theorem driverPost_refines (h : TxRefines cfg C A) (f : Fragment) :
    TxRefines cfg (driverPost cfg C f) (A.post cfg.size cfg.bufSize f) := by
  unfold driverPost TxQueue.post
  simp only [h.free_iff]
  split_ifs with hguard
  · obtain ⟨hm, hpos, hlen⟩ := hguard
    have hm' : (txPending cfg C.dev C.mem).length < cfg.size := by
      rwa [h.queue, ringQueue, List.length_map] at hm
    rw [h.tail]
    refine ⟨h.inv.post hm' hpos hlen, ?_, h.gathered, h.sent, ?_⟩
    · rw [ringQueue_postMem h.inv hm' hpos hlen, h.queue]
    · rw [txEnd_postMem h.inv hm' hlen]
  · exact h

/-- A kick takes from the ring what `kickLoop` takes from the queue, and
    aborts when it does. -/
theorem driverKick_refines (h : TxRefines cfg C A) : ExceptRel (TxRefines cfg) (driverKick C) A.kick := by
  have hs₁ : SameRing C.dev (setRegWithMask C.dev nvnetTxRxControl nvnetTxRxControlKick (~~~nvnetTxRxControlIdle)) :=
    sameRing_setReg (by decide) _
  have hcan : canTransmit (setRegWithMask C.dev nvnetTxRxControl nvnetTxRxControlKick (~~~nvnetTxRxControlIdle)) = true := by
    have h₁ := hs₁.inv h.inv
    simp [canTransmit, h₁.tx_enabled, h₁.link_up, dmaEnabled_kick]
  -- the loop runs from the state with the DMA marked busy, for as many passes as the ring has slots
  have hs₂ := hs₁.trans (sameRing_setDmaIdle _ false)
  have h₂ := hs₂.inv h.inv
  have hloop := dmaPacketFromGuestLoop_refines cfg.size h₂ length_ownedRun_le
  rw [hs₂.ringQueue_eq, hs₂.dmaGathered_eq, hs₂.txEnd_eq, ← h.queue, ← h.gathered] at hloop
  rw [driverKick, nvnetMmioWrite_kick, dmaPacketFromGuest, if_neg (by simp [hcan]), TxQueue.kick]
  simp only [h₂.size]
  generalize dmaPacketFromGuestLoop cfg.size _ C.mem = x at hloop ⊢
  generalize kickLoop A.queue A.gathered = y at hloop ⊢
  cases hloop with
  | error e => exact .error e
  | ok hR =>
    rename_i r q
    obtain ⟨s₃, mem₃, sent⟩ := r
    obtain ⟨q', g', p⟩ := q
    obtain ⟨h₃, hend, heq⟩ := hR
    simp only [Prod.mk.injEq] at heq
    obtain ⟨rfl, rfl, rfl⟩ := heq
    -- the DMA marked idle again, and the interrupt status set if a packet went out
    have hs₅ : SameRing s₃ (if sent = [] then setDmaIdle s₃ true else setIntrStatus (setDmaIdle s₃ true) nvnetIrqStatusTx) := by
      split
      · exact sameRing_setDmaIdle _ true
      · exact (sameRing_setDmaIdle _ true).trans (sameRing_setIntrStatus _ _)
    refine .ok ⟨hs₅.inv h₃, hs₅.ringQueue_eq.symm, hs₅.dmaGathered_eq.symm, ?_, ?_⟩
    · simp only [h.sent]
    · simp only
      rw [hs₅.txEnd_eq, hend, h.tail]

theorem step_refines (h : TxRefines cfg C A) (a : TxAction) :
    ExceptRel (TxRefines cfg) (C.step cfg a) (A.step cfg.size cfg.bufSize a) := by
  cases a with
  | post f => exact .ok (driverPost_refines h f)
  | kick => exact driverKick_refines h

/-- Every run of the driver and the device from a state that is the queue
    is a run of the queue: the two abort alike, or end in states that are
    each other's. -/
theorem txRun_refines (h : TxRefines cfg C A) (acts : List TxAction) :
    ExceptRel (TxRefines cfg) (run (TxSystem.step cfg) C acts) (run (TxQueue.step cfg.size cfg.bufSize) A acts) :=
  run_rel (fun _ _ a hCA => step_refines hCA a) acts h

end refines

/-- The transmit side once the driver has set it up: the ring's registers
    written and transmission started on a link that is up, no descriptor
    handed over, nothing gathered and nothing sent. -/
structure TxInit (cfg : TxConfig) (C : TxSystem) : Prop where
  base : C.dev.regs nvnetTxRingPhysAddr = cfg.base
  size : (getTxRingSize C.dev).toNat = cfg.size
  next : C.dev.regs nvnetTxRingNextDescPhysAddr = cfg.base
  tx_enabled : txEnabled C.dev = true
  link_up : linkUp C.dev = true
  offset : C.dev.txDmaBufOffset = 0
  none_owned : ∀ i < cfg.size, txOwned cfg C.mem i = false
  tail : C.tail = 0
  wire : C.wire = []

section init

variable {cfg : TxConfig} {C₀ : TxSystem}

/-- The set-up transmit side is the empty queue. -/
theorem TxInit.refines (h : TxInit cfg C₀) : TxRefines cfg C₀ TxQueue.empty := by
  have hslot : txSlot cfg C₀.dev = 0 := TxConfig.slotOf_eq (by rw [h.next]; simp [TxConfig.slotAddr])
  have hpend : txPending cfg C₀.dev C₀.mem = [] := by
    rw [txPending, hslot]
    exact ownedRun_of_not cfg.size_pos (h.none_owned 0 cfg.size_pos)
  refine ⟨⟨h.base, h.size, h.tx_enabled, h.link_up, ?_, ?_, ?_, ?_, ?_⟩, ?_, ?_, ?_, ?_⟩
  · rw [hslot]
    exact cfg.size_pos
  · rw [hslot, h.next]
    simp [TxConfig.slotAddr]
  · rw [hslot]
    exact contiguous_of_none h.none_owned
  · simp [hpend]
  · rw [h.offset]
    decide
  · simp [TxQueue.empty, ringQueue, hpend]
  · rw [dmaGathered, h.offset]
    rfl
  · rw [h.wire]
    rfl
  · rw [h.tail, txEnd, hslot, hpend]
    simp

/-- From the set-up state, every run of the driver and the device aborts as
    the queue's does, or ends with the packets on the wire and the bytes in
    `tx_dma_buf` exactly those that the fragments taken so far make, in the
    order handed over, and with the fragments still on the ring the rest of
    those handed over: none lost, repeated or reordered. -/
theorem tx_sends_posted_in_order (h₀ : TxInit cfg C₀) (acts : List TxAction) :
    ExceptRel (fun C A => ∃ consumed, A.posted = consumed ++ ringQueue cfg C.dev C.mem ∧
        packetize consumed = (C.wire, dmaGathered C.dev))
      (run (TxSystem.step cfg) C₀ acts) (run (TxQueue.step cfg.size cfg.bufSize) TxQueue.empty acts) := by
  -- the queue's own invariant rides along the simulation
  have hrun := run_rel (R := fun C A => TxRefines cfg C A ∧ FifoInv A)
    (fun _ _ a hCA => (step_refines hCA.1 a).and_right fun _ hA' => hCA.2.step hA') acts
    ⟨h₀.refines, fifoInv_empty⟩
  refine hrun.mono fun C A ⟨hCA, consumed, hposted, hpack⟩ => ⟨consumed, ?_, ?_⟩
  · rw [hposted, hCA.queue]
  · rw [hpack, hCA.sent, hCA.gathered]

end init

/-- A ring of two slots at `0x1000`, with buffers of 256 bytes at `0x2000`
    and `0x2100`. -/
def twoSlots : TxConfig where
  base := 0x1000
  size := 2
  buf i := 0x2000 + 0x100 * i
  bufSize := 0x100
  size_pos := by decide
  size_lt := by decide
  ring_fits := by decide
  bufSize_lt := by decide
  buf_fits := by decide
  buf_apart := by decide
  buf_off_ring := by decide

/-- The device and memory as the driver leaves them set up for `twoSlots`. -/
def twoSlotsSetUp : TxSystem where
  dev :=
    { regs := fun r =>
        if r = nvnetTxRingPhysAddr ∨ r = nvnetTxRingNextDescPhysAddr then 0x1000
        else if r = nvnetRingSize then 1
        else if r = nvnetTransmitterControl then nvnetTransmitterControlStart
        else 0
      phyRegs := phyRegInit
      txDmaBufOffset := 0
      txDmaBuf := fun _ => 0 }
  mem := fun _ => 0
  tail := 0
  wire := []

theorem twoSlotsSetUp_init : TxInit twoSlots twoSlotsSetUp :=
  ⟨rfl, by decide, rfl, by decide, by decide, rfl, by decide, rfl, rfl⟩

theorem txRun_refines_twoSlots :
    ExceptRel (TxRefines twoSlots)
      (run (TxSystem.step twoSlots) twoSlotsSetUp [.post ⟨[1, 2, 3], false⟩, .post ⟨[4], true⟩, .kick])
      (run (TxQueue.step twoSlots.size twoSlots.bufSize) TxQueue.empty
        [.post ⟨[1, 2, 3], false⟩, .post ⟨[4], true⟩, .kick]) :=
  txRun_refines twoSlotsSetUp_init.refines _

theorem tx_sends_posted_in_order_twoSlots :
    ExceptRel (fun C A => ∃ consumed, A.posted = consumed ++ ringQueue twoSlots C.dev C.mem ∧
        packetize consumed = (C.wire, dmaGathered C.dev))
      (run (TxSystem.step twoSlots) twoSlotsSetUp [.post ⟨[1, 2, 3], false⟩, .post ⟨[4], true⟩, .kick])
      (run (TxQueue.step twoSlots.size twoSlots.bufSize) TxQueue.empty
        [.post ⟨[1, 2, 3], false⟩, .post ⟨[4], true⟩, .kick]) :=
  tx_sends_posted_in_order twoSlotsSetUp_init _

/-- Two fragments and a kick put one packet of their bytes on the wire. -/
example : (run (TxSystem.step twoSlots) twoSlotsSetUp
    [.post ⟨[1, 2, 3], false⟩, .post ⟨[4], true⟩, .kick]).map TxSystem.wire = .ok [[1, 2, 3, 4]] := by
  rfl

end Xemu.Net
