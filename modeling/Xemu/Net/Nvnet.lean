import Mathlib
import Xemu.Lib.Word
import Xemu.Lib.Memory

/-! # The network controller: registers and descriptor rings

    Model of `hw/xbox/mcpx/nvnet/nvnet.c`, the Ethernet controller of the
    MCPX.  The guest's driver and the device share two rings of descriptors
    in guest memory, one to transmit and one to receive.  A descriptor
    (`struct RingDesc`) is eight bytes: the address of a buffer, a length
    and flags.  The driver hands a transmit descriptor to the device by
    setting `NV_TX_VALID`, and a receive descriptor by setting
    `NV_RX_AVAIL`; the device hands it back by writing the descriptor with
    that flag cleared.

    `dma_packet_from_guest`, run when the driver writes `TX_RX_CONTROL` with
    `KICK`, walks the transmit ring from `TX_RING_NEXT_DESC_PHYS_ADDR`: it
    gathers the buffers of valid descriptors in `tx_dma_buf` and sends them
    as a packet at a descriptor with `NV_TX_LASTPACKET`, where it stops; it
    also stops at the first descriptor that is not valid, and after as many
    descriptors as the ring has.  `dma_packet_to_guest`, run for a packet
    from the network that passes `receive_filter`, writes it to the buffer
    of the current receive descriptor if that one is available.  A ring
    pointer moves from the last descriptor back to the first, and one
    outside its ring starts again at the ring's base.

    The state is the register file (the 32-bit registers at their offsets:
    the 8- and 16-bit accesses that `get_reg_ext` and `set_reg_ext` also
    allow are not modelled), the PHY registers, and `tx_dma_buf` with its
    offset.  Guest memory is a map from addresses to bytes, and the packets
    sent on the wire are returned.  A failed `assert` is an abort.  Not
    modelled: the interrupt line (the status register is), the
    autonegotiation timer, the link changes from the network backend,
    tracing and migration.
-/

namespace Xemu.Net

open Function Xemu.Word Xemu.Memory

/-! ## Section 1: Registers and descriptors -/

/-- `NVNET_IRQ_STATUS` -/
abbrev nvnetIrqStatus : Nat := 0x000
/-- `NVNET_IRQ_STATUS_RX` -/
abbrev nvnetIrqStatusRx : UInt32 := 0x00000002
/-- `NVNET_IRQ_STATUS_TX` -/
abbrev nvnetIrqStatusTx : UInt32 := 0x00000010
/-- `NVNET_IRQ_MASK` -/
abbrev nvnetIrqMask : Nat := 0x004
/-- `NVNET_TRANSMITTER_CONTROL` -/
abbrev nvnetTransmitterControl : Nat := 0x084
/-- `NVNET_TRANSMITTER_CONTROL_START` -/
abbrev nvnetTransmitterControlStart : UInt32 := 0x00000001
/-- `NVNET_PACKET_FILTER` -/
abbrev nvnetPacketFilter : Nat := 0x08C
/-- `NVNET_PACKET_FILTER_MYADDR` -/
abbrev nvnetPacketFilterMyaddr : UInt32 := 0x00000020
/-- `NVNET_RECEIVER_CONTROL` -/
abbrev nvnetReceiverControl : Nat := 0x094
/-- `NVNET_RECEIVER_CONTROL_START` -/
abbrev nvnetReceiverControlStart : UInt32 := 0x00000001
/-- `NVNET_MAC_ADDR_A` -/
abbrev nvnetMacAddrA : Nat := 0x0A8
/-- `NVNET_MAC_ADDR_B` -/
abbrev nvnetMacAddrB : Nat := 0x0AC
/-- `NVNET_MULTICAST_ADDR_A` -/
abbrev nvnetMulticastAddrA : Nat := 0x0B0
/-- `NVNET_MULTICAST_ADDR_B` -/
abbrev nvnetMulticastAddrB : Nat := 0x0B4
/-- `NVNET_MULTICAST_MASK_A` -/
abbrev nvnetMulticastMaskA : Nat := 0x0B8
/-- `NVNET_MULTICAST_MASK_B` -/
abbrev nvnetMulticastMaskB : Nat := 0x0BC
/-- `NVNET_TX_RING_PHYS_ADDR` -/
abbrev nvnetTxRingPhysAddr : Nat := 0x100
/-- `NVNET_RX_RING_PHYS_ADDR` -/
abbrev nvnetRxRingPhysAddr : Nat := 0x104
/-- `NVNET_RING_SIZE` -/
abbrev nvnetRingSize : Nat := 0x108
/-- `NVNET_RING_SIZE_TX` -/
abbrev nvnetRingSizeTx : UInt32 := 0x0000FFFF
/-- `NVNET_RING_SIZE_RX` -/
abbrev nvnetRingSizeRx : UInt32 := 0xFFFF0000
/-- `NVNET_TX_RING_CURRENT_DESC_PHYS_ADDR` -/
abbrev nvnetTxRingCurrentDescPhysAddr : Nat := 0x11C
/-- `NVNET_RX_RING_CURRENT_DESC_PHYS_ADDR` -/
abbrev nvnetRxRingCurrentDescPhysAddr : Nat := 0x120
/-- `NVNET_UNKNOWN_SETUP_REG5` -/
abbrev nvnetUnknownSetupReg5 : Nat := 0x130
/-- `NVNET_UNKNOWN_SETUP_REG5_BIT31` -/
abbrev nvnetUnknownSetupReg5Bit31 : UInt32 := 0x80000000
/-- `NVNET_TX_RING_NEXT_DESC_PHYS_ADDR` -/
abbrev nvnetTxRingNextDescPhysAddr : Nat := 0x134
/-- `NVNET_RX_RING_NEXT_DESC_PHYS_ADDR` -/
abbrev nvnetRxRingNextDescPhysAddr : Nat := 0x138
/-- `NVNET_TX_RX_CONTROL` -/
abbrev nvnetTxRxControl : Nat := 0x144
/-- `NVNET_TX_RX_CONTROL_KICK` -/
abbrev nvnetTxRxControlKick : UInt32 := 0x00000001
/-- `NVNET_TX_RX_CONTROL_BIT1` -/
abbrev nvnetTxRxControlBit1 : UInt32 := 0x00000002
/-- `NVNET_TX_RX_CONTROL_BIT2`, which stops the DMA when set -/
abbrev nvnetTxRxControlBit2 : UInt32 := 0x00000004
/-- `NVNET_TX_RX_CONTROL_IDLE` -/
abbrev nvnetTxRxControlIdle : UInt32 := 0x00000008
/-- `NVNET_TX_RX_CONTROL_RESET` -/
abbrev nvnetTxRxControlReset : UInt32 := 0x00000010
/-- `NVNET_MII_STATUS` -/
abbrev nvnetMiiStatus : Nat := 0x180
/-- `NVNET_ADAPTER_CONTROL` -/
abbrev nvnetAdapterControl : Nat := 0x188
/-- `NVNET_ADAPTER_CONTROL_LINKUP` -/
abbrev nvnetAdapterControlLinkup : UInt32 := 0x00000004
/-- `NVNET_MDIO_ADDR` -/
abbrev nvnetMdioAddr : Nat := 0x190
/-- `NVNET_MDIO_ADDR_INUSE` -/
abbrev nvnetMdioAddrInuse : UInt32 := 0x00008000
/-- `NVNET_MDIO_ADDR_WRITE` -/
abbrev nvnetMdioAddrWrite : UInt32 := 0x00000400
/-- `NVNET_MDIO_ADDR_PHYADDR` -/
abbrev nvnetMdioAddrPhyaddr : UInt32 := 0x000003E0
/-- `NVNET_MDIO_ADDR_PHYREG` -/
abbrev nvnetMdioAddrPhyreg : UInt32 := 0x0000001F
/-- `NVNET_MDIO_DATA` -/
abbrev nvnetMdioData : Nat := 0x194
/-- `MMIO_SIZE` -/
abbrev mmioSize : Nat := 0x400
/-- `PHY_ADDR` -/
abbrev phyAddr : UInt32 := 1

/-- `NV_TX_LASTPACKET` -/
abbrev nvTxLastpacket : UInt16 := (1 : UInt16) <<< 0
/-- `NV_TX_RETRYERROR` -/
abbrev nvTxRetryerror : UInt16 := (1 : UInt16) <<< 3
/-- `NV_TX_DEFERRED` -/
abbrev nvTxDeferred : UInt16 := (1 : UInt16) <<< 10
/-- `NV_TX_CARRIERLOST` -/
abbrev nvTxCarrierlost : UInt16 := (1 : UInt16) <<< 11
/-- `NV_TX_LATECOLLISION` -/
abbrev nvTxLatecollision : UInt16 := (1 : UInt16) <<< 12
/-- `NV_TX_UNDERFLOW` -/
abbrev nvTxUnderflow : UInt16 := (1 : UInt16) <<< 13
/-- `NV_TX_ERROR` -/
abbrev nvTxError : UInt16 := (1 : UInt16) <<< 14
/-- `NV_TX_VALID` -/
abbrev nvTxValid : UInt16 := (1 : UInt16) <<< 15
/-- `NV_RX_DESCRIPTORVALID` -/
abbrev nvRxDescriptorvalid : UInt16 := (1 : UInt16) <<< 0
/-- `NV_RX_BIT4` -/
abbrev nvRxBit4 : UInt16 := (1 : UInt16) <<< 4
/-- `NV_RX_AVAIL` -/
abbrev nvRxAvail : UInt16 := (1 : UInt16) <<< 15

/-- `TX_ALLOC_BUFSIZE`, `DEFAULT_MTU + 128` -/
abbrev txAllocBufsize : Nat := 1500 + 128
/-- `RX_ALLOC_BUFSIZE`, `DEFAULT_MTU + 128` -/
abbrev rxAllocBufsize : Nat := 1500 + 128

/-- `MII_BMCR` -/
abbrev miiBmcr : Nat := 0
/-- `MII_BMSR` -/
abbrev miiBmsr : Nat := 1
/-- `MII_ANAR` -/
abbrev miiAnar : Nat := 4
/-- `MII_ANLPAR` -/
abbrev miiAnlpar : Nat := 5
/-- `MII_BMSR_LINK_ST` -/
abbrev miiBmsrLinkSt : UInt32 := (1 : UInt32) <<< 2
/-- `MII_BMSR_AN_COMP` -/
abbrev miiBmsrAnComp : UInt32 := (1 : UInt32) <<< 5
/-- `MII_ANLPAR_ACK` -/
abbrev miiAnlparAck : UInt32 := (1 : UInt32) <<< 14

/-- The failed `assert`s. -/
inductive NvnetAbort
  /-- `dma_packet_from_guest`: the gathered packet would overflow `tx_dma_buf` -/
  | txDmaBuf
  /-- `dma_packet_to_guest`: the packet is longer than the descriptor's buffer -/
  | rxDescLength
  /-- `nvnet_mmio_write`: an unaligned write -/
  | unalignedMmio
  /-- `set_reg_ext`: a register past `MMIO_SIZE` -/
  | regOutOfRange
  deriving DecidableEq, Repr

/-- The fields of `NvNetState` the model reads and writes. -/
structure NvNetState where
  /-- `regs`, as the 32-bit registers at their byte offsets -/
  regs : Nat → UInt32
  phyRegs : Nat → UInt32
  txDmaBufOffset : UInt32
  txDmaBuf : Nat → UInt8

namespace NvNetState

/-- `set_reg(s, addr, val)` -/
@[simps -fullyApplied]
def setReg (s : NvNetState) (addr : Nat) (val : UInt32) : NvNetState :=
  { s with regs := update s.regs addr val }

end NvNetState

/-- `or_reg(s, addr, val)` -/
def orReg (s : NvNetState) (addr : Nat) (val : UInt32) : NvNetState := s.setReg addr (s.regs addr ||| val)

/-- `and_reg(s, addr, val)` -/
def andReg (s : NvNetState) (addr : Nat) (val : UInt32) : NvNetState := s.setReg addr (s.regs addr &&& val)

/-- `set_reg_with_mask(s, addr, val, w_mask)`: the bits of `w_mask` from
    `val`, the others kept. -/
def setRegWithMask (s : NvNetState) (addr : Nat) (val wMask : UInt32) : NvNetState :=
  s.setReg addr ((s.regs addr &&& (val ||| ~~~wMask)) ||| (val &&& wMask))

/-- `set_intr_status(s, status)`, without the interrupt line. -/
def setIntrStatus (s : NvNetState) (status : UInt32) : NvNetState := orReg s nvnetIrqStatus status

/-- `struct RingDesc` -/
structure RingDesc where
  bufferAddr : UInt32
  length : UInt16
  flags : UInt16
  deriving DecidableEq, Repr

/-- The eight bytes of a descriptor in guest memory, little-endian. -/
def RingDesc.bytes (desc : RingDesc) : List UInt8 :=
  leBytes 4 desc.bufferAddr.toNat ++ leBytes 2 desc.length.toNat ++ leBytes 2 desc.flags.toNat

/-- The descriptor whose eight bytes are `raw`. -/
def RingDesc.ofBytes (raw : List UInt8) : RingDesc :=
  ⟨UInt32.ofNat (ofLeBytes (raw.take 4)), UInt16.ofNat (ofLeBytes ((raw.drop 4).take 2)),
    UInt16.ofNat (ofLeBytes (raw.drop 6))⟩

/-- `load_ring_desc(s, desc_addr)` -/
def loadRingDesc (mem : Nat → UInt8) (descAddr : Nat) : RingDesc := RingDesc.ofBytes (load mem descAddr 8)

/-- `store_ring_desc(s, desc_addr, desc)` -/
def storeRingDesc (mem : Nat → UInt8) (descAddr : Nat) (desc : RingDesc) : Nat → UInt8 :=
  storeList mem descAddr desc.bytes

/-! ## Section 2: The rings -/

/-- `get_tx_ring_size(s)`: a `uint16_t`, so a field of `0xFFFF` gives 0. -/
def getTxRingSize (s : NvNetState) : UInt16 := (getMask (s.regs nvnetRingSize) nvnetRingSizeTx).toUInt16 + 1

/-- `get_rx_ring_size(s)` -/
def getRxRingSize (s : NvNetState) : UInt16 := (getMask (s.regs nvnetRingSize) nvnetRingSizeRx).toUInt16 + 1

/-- `reset_descriptor_ring_pointers(s)` -/
def resetDescriptorRingPointers (s : NvNetState) : NvNetState :=
  let s := s.setReg nvnetTxRingCurrentDescPhysAddr (s.regs nvnetTxRingPhysAddr)
  let s := s.setReg nvnetTxRingNextDescPhysAddr (s.regs nvnetTxRingPhysAddr)
  let s := s.setReg nvnetRxRingCurrentDescPhysAddr (s.regs nvnetRxRingPhysAddr)
  s.setReg nvnetRxRingNextDescPhysAddr (s.regs nvnetRxRingPhysAddr)

/-- `update_current_{tx,rx}_ring_desc_addr(s)`, for the ring whose base,
    current and next registers are `physAddr`, `currentReg` and `nextReg`:
    the next descriptor becomes the current one, or the base when it lies
    outside the ring.  `max_desc_addr` is a `uint32_t`, but `cur_desc_addr
    + sizeof(struct RingDesc)` is computed in `size_t`. -/
def updateCurrentRingDescAddr (physAddr currentReg nextReg : Nat) (ringSize : UInt16)
    (s : NvNetState) : NvNetState × UInt32 :=
  let baseDescAddr := s.regs physAddr
  let maxDescAddr := baseDescAddr + ringSize.toUInt32 * 8
  let curDescAddr := s.regs nextReg
  let curDescAddr :=
    if curDescAddr < baseDescAddr ∨ maxDescAddr.toNat < curDescAddr.toNat + 8 then baseDescAddr
    else curDescAddr
  (s.setReg currentReg curDescAddr, curDescAddr)

/-- `advance_next_{tx,rx}_ring_desc_addr(s)`: the descriptor after the
    current one, or the base after the last. -/
def advanceNextRingDescAddr (physAddr currentReg nextReg : Nat) (ringSize : UInt16)
    (s : NvNetState) : NvNetState :=
  let baseDescAddr := s.regs physAddr
  let maxDescAddr := baseDescAddr + ringSize.toUInt32 * 8
  let nextDescAddr := s.regs currentReg + 8
  let nextDescAddr := if maxDescAddr ≤ nextDescAddr then baseDescAddr else nextDescAddr
  s.setReg nextReg nextDescAddr

/-- `update_current_tx_ring_desc_addr(s)` -/
def updateCurrentTxRingDescAddr (s : NvNetState) : NvNetState × UInt32 :=
  updateCurrentRingDescAddr nvnetTxRingPhysAddr nvnetTxRingCurrentDescPhysAddr nvnetTxRingNextDescPhysAddr
    (getTxRingSize s) s

/-- `advance_next_tx_ring_desc_addr(s)` -/
def advanceNextTxRingDescAddr (s : NvNetState) : NvNetState :=
  advanceNextRingDescAddr nvnetTxRingPhysAddr nvnetTxRingCurrentDescPhysAddr nvnetTxRingNextDescPhysAddr
    (getTxRingSize s) s

/-- `update_current_rx_ring_desc_addr(s)` -/
def updateCurrentRxRingDescAddr (s : NvNetState) : NvNetState × UInt32 :=
  updateCurrentRingDescAddr nvnetRxRingPhysAddr nvnetRxRingCurrentDescPhysAddr nvnetRxRingNextDescPhysAddr
    (getRxRingSize s) s

/-- `advance_next_rx_ring_desc_addr(s)` -/
def advanceNextRxRingDescAddr (s : NvNetState) : NvNetState :=
  advanceNextRingDescAddr nvnetRxRingPhysAddr nvnetRxRingCurrentDescPhysAddr nvnetRxRingNextDescPhysAddr
    (getRxRingSize s) s

/-- `link_up(s)` -/
def linkUp (s : NvNetState) : Bool := s.phyRegs miiBmsr &&& miiBmsrLinkSt ≠ 0

/-- `dma_enabled(s)` -/
def dmaEnabled (s : NvNetState) : Bool := s.regs nvnetTxRxControl &&& nvnetTxRxControlBit2 = 0

/-- `set_dma_idle(s, idle)` -/
def setDmaIdle (s : NvNetState) (idle : Bool) : NvNetState :=
  if idle then orReg s nvnetTxRxControl nvnetTxRxControlIdle
  else andReg s nvnetTxRxControl (~~~nvnetTxRxControlIdle)

/-- `rx_enabled(s)` -/
def rxEnabled (s : NvNetState) : Bool := s.regs nvnetReceiverControl &&& nvnetReceiverControlStart ≠ 0

/-- `tx_enabled(s)` -/
def txEnabled (s : NvNetState) : Bool := s.regs nvnetTransmitterControl &&& nvnetTransmitterControlStart ≠ 0

/-- `can_transmit(s)` -/
def canTransmit (s : NvNetState) : Bool := txEnabled s && dmaEnabled s && linkUp s

/-! ## Section 3: Transmit -/

/-- The flags `dma_packet_from_guest` clears on a descriptor it has taken. -/
def nvTxTakenMask : UInt16 :=
  ~~~(nvTxValid ||| nvTxRetryerror ||| nvTxDeferred ||| nvTxCarrierlost ||| nvTxLatecollision |||
    nvTxUnderflow ||| nvTxError)

/-- The loop of `dma_packet_from_guest`, `i` descriptors at most: the state,
    the memory and the packets sent.  The loop bound `get_tx_ring_size(s)`
    is read at every pass, but nothing in the loop writes `RING_SIZE`. -/
def dmaPacketFromGuestLoop : Nat → NvNetState → (Nat → UInt8) →
    Except NvnetAbort (NvNetState × (Nat → UInt8) × List (List UInt8))
  | 0, s, mem => .ok (s, mem, [])
  | i + 1, s, mem =>
    let (s, curDescAddr) := updateCurrentTxRingDescAddr s
    let desc := loadRingDesc mem curDescAddr.toNat
    let length : UInt16 := desc.length + 1
    if desc.flags &&& nvTxValid = 0 then .ok (s, mem, [])
    else if txAllocBufsize < (s.txDmaBufOffset + length.toUInt32).toNat then .error .txDmaBuf
    else
      let s := { s with
        txDmaBuf := copy s.txDmaBuf s.txDmaBufOffset.toNat mem desc.bufferAddr.toNat length.toNat
        txDmaBufOffset := s.txDmaBufOffset + length.toUInt32 }
      let isLastPacket := desc.flags &&& nvTxLastpacket ≠ 0
      let sent := if isLastPacket then [load s.txDmaBuf 0 s.txDmaBufOffset.toNat] else []
      let s := if isLastPacket then { s with txDmaBufOffset := 0 } else s
      let mem := storeRingDesc mem curDescAddr.toNat { desc with flags := desc.flags &&& nvTxTakenMask }
      let s := advanceNextTxRingDescAddr s
      if isLastPacket then .ok (s, mem, sent)
      else dmaPacketFromGuestLoop i s mem

/-- `dma_packet_from_guest(s)`: the state, the memory and the packets sent. -/
def dmaPacketFromGuest (s : NvNetState) (mem : Nat → UInt8) :
    Except NvnetAbort (NvNetState × (Nat → UInt8) × List (List UInt8)) :=
  if canTransmit s = false then .ok (s, mem, []) else
  let s := setDmaIdle s false
  match dmaPacketFromGuestLoop (getTxRingSize s).toNat s mem with
  | .error e => .error e
  | .ok (s, mem, sent) =>
    let s := setDmaIdle s true
    .ok (if sent = [] then s else setIntrStatus s nvnetIrqStatusTx, mem, sent)

/-! ## Section 4: Receive -/

/-- `rx_buf_available(s)`, which also updates the current descriptor. -/
def rxBufAvailable (s : NvNetState) (mem : Nat → UInt8) : NvNetState × Bool :=
  let (s, curDescAddr) := updateCurrentRxRingDescAddr s
  (s, (loadRingDesc mem curDescAddr.toNat).flags &&& nvRxAvail ≠ 0)

/-- `nvnet_can_receive(nc)` -/
def nvnetCanReceive (s : NvNetState) (mem : Nat → UInt8) : NvNetState × Bool :=
  let rxEn := rxEnabled s
  let dmaEn := dmaEnabled s
  let linkEn := linkUp s
  let (s, bufAvail) := rxBufAvailable s mem
  (s, rxEn && dmaEn && linkEn && bufAvail)

/-- `dma_packet_to_guest(s, buf, size)`: the state, the memory and the
    return value, the size or `-1`. -/
def dmaPacketToGuest (s : NvNetState) (mem : Nat → UInt8) (buf : List UInt8) :
    Except NvnetAbort (NvNetState × (Nat → UInt8) × Int) :=
  let (s, canRx) := nvnetCanReceive s mem
  if canRx = false then .ok (s, mem, -1) else
  let s := setDmaIdle s false
  let (s, curDescAddr) := updateCurrentRxRingDescAddr s
  let desc := loadRingDesc mem curDescAddr.toNat
  if desc.flags &&& nvRxAvail ≠ 0 then
    if desc.length.toNat + 1 < buf.length then .error .rxDescLength
    else
      let mem := storeList mem desc.bufferAddr.toNat buf
      let desc := { desc with length := UInt16.ofNat buf.length, flags := nvRxBit4 ||| nvRxDescriptorvalid }
      let mem := storeRingDesc mem curDescAddr.toNat desc
      let s := setIntrStatus s nvnetIrqStatusRx
      let s := advanceNextRxRingDescAddr s
      .ok (setDmaIdle s true, mem, buf.length)
  else .ok (setDmaIdle s true, mem, -1)

/-- `is_broadcast_ether_addr(addr)`: the six bytes `and` to `0xff`. -/
def isBroadcastEtherAddr (addr : List UInt8) : Bool :=
  ((addr.take 6).foldl (· &&& ·) 0xff) = 0xff

/-- The six bytes of an address kept in two registers, as `cpu_to_le32`
    of each and a `memcmp` of six bytes see them. -/
def macBytes (a b : UInt32) : List UInt8 := (leBytes 4 a.toNat ++ leBytes 4 b.toNat).take 6

/-- `receive_filter(s, buf, size)` -/
def receiveFilter (s : NvNetState) (buf : List UInt8) : Bool :=
  if buf.length < 6 then false
  else if isBroadcastEtherAddr buf then true
  else if s.regs nvnetPacketFilter &&& nvnetPacketFilterMyaddr = 0 then true
  else
    let addr := macBytes (s.regs nvnetMulticastAddrA) (s.regs nvnetMulticastAddrB)
    let mask := macBytes (s.regs nvnetMulticastMaskA) (s.regs nvnetMulticastMaskB)
    -- the multicast test, unless the multicast address is the broadcast one
    if !isBroadcastEtherAddr addr && List.zipWith (· &&& ·) (buf.take 6) mask == addr then true
    else buf.take 6 == macBytes (s.regs nvnetMacAddrA) (s.regs nvnetMacAddrB)

/-- `nvnet_receive_iov(nc, iov, iovcnt)` for a packet `buf`: an oversized
    packet and one the filter drops are consumed without a write. -/
def nvnetReceiveIov (s : NvNetState) (mem : Nat → UInt8) (buf : List UInt8) :
    Except NvnetAbort (NvNetState × (Nat → UInt8) × Int) :=
  if rxAllocBufsize < buf.length then .ok (s, mem, buf.length)
  else if receiveFilter s buf = false then .ok (s, mem, buf.length)
  else dmaPacketToGuest s mem buf

/-! ## Section 5: Register writes and reset -/

/-- `phy_reg_read(s, reg)` -/
def phyRegRead (s : NvNetState) (reg : Nat) : UInt16 := if reg < 6 then (s.phyRegs reg).toUInt16 else 0

/-- `phy_reg_write(s, reg, value)` -/
def phyRegWrite (s : NvNetState) (reg : Nat) (value : UInt16) : NvNetState :=
  if reg < 6 then { s with phyRegs := update s.phyRegs reg value.toUInt32 } else s

/-- `mdio_read(s)` -/
def mdioRead (s : NvNetState) : NvNetState :=
  let mdioAddr := s.regs nvnetMdioAddr
  let phyReg := getMask mdioAddr nvnetMdioAddrPhyreg
  let mdioData : UInt32 :=
    if getMask mdioAddr nvnetMdioAddrPhyaddr = phyAddr then (phyRegRead s phyReg.toNat).toUInt32
    else 0xFFFFFFFF
  andReg (s.setReg nvnetMdioData mdioData) nvnetMdioAddr (~~~nvnetMdioAddrInuse)

/-- `mdio_write(s)` -/
def mdioWrite (s : NvNetState) : NvNetState :=
  let mdioAddr := s.regs nvnetMdioAddr
  let phyReg := getMask mdioAddr nvnetMdioAddrPhyreg
  let s := if getMask mdioAddr nvnetMdioAddrPhyaddr = phyAddr then
      phyRegWrite s phyReg.toNat (s.regs nvnetMdioData).toUInt16
    else s
  andReg s nvnetMdioAddr (~~~nvnetMdioAddrInuse)

/-- `nvnet_mmio_write(s, addr, val, 4)`: the state, the memory and the
    packets a kick sends. -/
def nvnetMmioWrite (s : NvNetState) (mem : Nat → UInt8) (addr : Nat) (val : UInt32) :
    Except NvnetAbort (NvNetState × (Nat → UInt8) × List (List UInt8)) :=
  if addr % 4 ≠ 0 then .error .unalignedMmio
  else if mmioSize ≤ addr then .error .regOutOfRange
  else if addr = nvnetMdioAddr then
    let s := s.setReg addr val
    .ok (if val &&& nvnetMdioAddrWrite ≠ 0 then mdioWrite s else mdioRead s, mem, [])
  else if addr = nvnetTxRxControl then
    let s := setRegWithMask s addr val (~~~nvnetTxRxControlIdle)
    let kicked := if val &&& nvnetTxRxControlKick ≠ 0 then dmaPacketFromGuest s mem else .ok (s, mem, [])
    match kicked with
    | .error e => .error e
    | .ok (s, mem, sent) =>
      let s := if val &&& nvnetTxRxControlReset ≠ 0 then
          { resetDescriptorRingPointers s with txDmaBufOffset := 0 }
        else s
      let s := if val &&& nvnetTxRxControlBit1 ≠ 0 then s.setReg nvnetIrqStatus 0
        else if val = 0 then s.setReg nvnetUnknownSetupReg5 nvnetUnknownSetupReg5Bit31
        else s
      .ok (s, mem, sent)
  else if addr = nvnetIrqStatus ∨ addr = nvnetMiiStatus then
    .ok (s.setReg addr (s.regs addr &&& ~~~val), mem, [])
  else .ok (s.setReg addr val, mem, [])

/-- `phy_reg_init` -/
def phyRegInit (reg : Nat) : UInt32 :=
  if reg = miiBmcr then ((1 : UInt32) <<< 8) ||| ((1 : UInt32) <<< 12)
  else if reg = miiBmsr then ((1 : UInt32) <<< 3) ||| miiBmsrAnComp ||| miiBmsrLinkSt
  else if reg = miiAnar ∨ reg = miiAnlpar then
    ((1 : UInt32) <<< 5) ||| ((1 : UInt32) <<< 6) ||| ((1 : UInt32) <<< 7) ||| ((1 : UInt32) <<< 8) |||
      ((1 : UInt32) <<< 9)
  else 0

/-- `update_regs_on_link_down(s)` -/
def updateRegsOnLinkDown (s : NvNetState) : NvNetState :=
  let bmsr := s.phyRegs miiBmsr &&& ~~~miiBmsrLinkSt &&& ~~~miiBmsrAnComp
  let s := { s with phyRegs := update s.phyRegs miiBmsr bmsr }
  let s := { s with phyRegs := update s.phyRegs miiAnlpar (s.phyRegs miiAnlpar &&& ~~~miiAnlparAck) }
  andReg s nvnetAdapterControl (~~~nvnetAdapterControlLinkup)

/-- `nvnet_reset(s)`, with the backend's link state `linkDown`. -/
def nvnetReset (s : NvNetState) (linkDown : Bool) : NvNetState :=
  let s := orReg { s with regs := fun _ => 0 } nvnetTxRxControl nvnetTxRxControlIdle
  let s := { s with phyRegs := phyRegInit, txDmaBuf := fun _ => 0, txDmaBufOffset := 0 }
  if linkDown then updateRegsOnLinkDown s else s

/-! ## Section 6: Descriptors in memory and the ring pointers -/

@[simp] theorem RingDesc.length_bytes (desc : RingDesc) : desc.bytes.length = 8 := by
  simp [RingDesc.bytes]

/-- Decoding the eight bytes of a descriptor gives the descriptor back. -/
@[simp] theorem RingDesc.ofBytes_bytes (desc : RingDesc) : RingDesc.ofBytes desc.bytes = desc := by
  obtain ⟨a, l, f⟩ := desc
  have ha : ofLeBytes (leBytes 4 a.toNat) = a.toNat := by
    rw [ofLeBytes_leBytes, Nat.mod_eq_of_lt (by simpa using a.toNat_lt)]
  have hl : ofLeBytes (leBytes 2 l.toNat) = l.toNat := by
    rw [ofLeBytes_leBytes, Nat.mod_eq_of_lt (by simpa using l.toNat_lt)]
  have hf : ofLeBytes (leBytes 2 f.toNat) = f.toNat := by
    rw [ofLeBytes_leBytes, Nat.mod_eq_of_lt (by simpa using f.toNat_lt)]
  simp only [RingDesc.bytes, RingDesc.ofBytes, List.append_assoc]
  rw [List.take_left' (length_leBytes 4 _), List.drop_left' (length_leBytes 4 _),
    List.take_left' (length_leBytes 2 _), show 6 = 4 + 2 from rfl, ← List.drop_drop,
    List.drop_left' (length_leBytes 4 _), List.drop_left' (length_leBytes 2 _), ha, hl, hf]
  simp

theorem loadRingDesc_storeRingDesc (mem : Nat → UInt8) (descAddr : Nat) (desc : RingDesc) :
    loadRingDesc (storeRingDesc mem descAddr desc) descAddr = desc := by
  rw [loadRingDesc, storeRingDesc, load_storeList_eq _ _ desc.length_bytes, RingDesc.ofBytes_bytes]

section pointers

variable {physAddr currentReg nextReg : Nat} {ringSize : UInt16} {s : NvNetState} {k : Nat}

/-- With the ring inside the address space, its end is `base + 8 · size`
    with no wrap. -/
theorem maxDescAddr_toNat (hfit : (s.regs physAddr).toNat + 8 * ringSize.toNat < 2 ^ 32) :
    (s.regs physAddr + ringSize.toUInt32 * 8).toNat = (s.regs physAddr).toNat + 8 * ringSize.toNat := by
  have hsz : ringSize.toNat < 2 ^ 16 := ringSize.toNat_lt
  rw [UInt32.toNat_add, UInt32.toNat_mul, UInt16.toNat_toUInt32]
  simp only [UInt32.reduceToNat]
  rw [Nat.mod_eq_of_lt (by omega), Nat.mod_eq_of_lt (by omega)]
  ring

/-- A next descriptor on the ring becomes the current one as it is. -/
theorem updateCurrentRingDescAddr_of_slot
    (hfit : (s.regs physAddr).toNat + 8 * ringSize.toNat < 2 ^ 32) (hk : k < ringSize.toNat)
    (hnext : (s.regs nextReg).toNat = (s.regs physAddr).toNat + 8 * k) :
    updateCurrentRingDescAddr physAddr currentReg nextReg ringSize s =
      (s.setReg currentReg (s.regs nextReg), s.regs nextReg) := by
  have hmax := maxDescAddr_toNat hfit
  have hin : ¬(s.regs nextReg < s.regs physAddr ∨
      (s.regs physAddr + ringSize.toUInt32 * 8).toNat < (s.regs nextReg).toNat + 8) := by
    rw [UInt32.lt_iff_toNat_lt, hmax, hnext]
    omega
  simp only [updateCurrentRingDescAddr, if_neg hin]

/-- From the current descriptor at slot `k`, the next is at slot `k + 1`,
    or back at the base after the last. -/
theorem advanceNextRingDescAddr_of_slot
    (hfit : (s.regs physAddr).toNat + 8 * ringSize.toNat < 2 ^ 32) (hk : k < ringSize.toNat)
    (hcur : (s.regs currentReg).toNat = (s.regs physAddr).toNat + 8 * k) :
    ∃ v : UInt32, advanceNextRingDescAddr physAddr currentReg nextReg ringSize s = s.setReg nextReg v ∧
      v.toNat = (s.regs physAddr).toNat + 8 * ((k + 1) % ringSize.toNat) := by
  have hmax := maxDescAddr_toNat hfit
  have hnext : (s.regs currentReg + 8).toNat = (s.regs physAddr).toNat + 8 * (k + 1) := by
    rw [UInt32.toNat_add, hcur]
    simp only [UInt32.reduceToNat]
    rw [Nat.mod_eq_of_lt (by omega)]
    ring
  refine ⟨_, rfl, ?_⟩
  split_ifs with hwrap
  · -- past the last slot: back to the base
    rw [UInt32.le_iff_toNat_le, hmax, hnext] at hwrap
    rw [show k + 1 = ringSize.toNat by omega, Nat.mod_self]
    simp
  · rw [UInt32.le_iff_toNat_le, hmax, hnext] at hwrap
    rw [hnext, Nat.mod_eq_of_lt (by omega)]

end pointers

end Xemu.Net
