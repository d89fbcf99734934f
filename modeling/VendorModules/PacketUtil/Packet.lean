import VendorModules.Lib.Words

/-!
# Camera packets

User space hands over a packet: a header, and in the payload behind it tables of command buffer,
io and patch descriptors at offsets the header names. The kernel copies the packet before it
checks it, so that what it has checked is what it reads later.

A `size_t` has 64 bits. No sum of a header's offset and of a table's size comes near that, so
such sums are sums of natural numbers here.
-/

namespace VendorModules.PacketUtil

open Lib

abbrev U8 := BitVec 8

abbrev U32 := BitVec 32

abbrev U64 := BitVec 64

def EINVAL : Int := -22

def ENOMEM : Int := -12

inductive Stop
  | refused (rc : Int)
  | outside
  deriving DecidableEq

/-- `sizeof(struct cam_packet)` -/
def sizeofCamPacket : Nat := 64

/-- `offsetof(struct cam_packet, payload)` -/
def pktWoPayload : Nat := 56

def sizeofCmdBufDesc : Nat := 24

def sizeofBufIoCfg : Nat := 256

def sizeofPatchDesc : Nat := 16

structure CamPacket where
  copied : Nat
  bytes : Nat → U8
  whole : sizeofCamPacket ≤ copied

structure CmdBufDesc where
  memHandle : U32
  offset : U32
  size : U32
  length : U32
  deriving DecidableEq

structure BufIoCfg where
  memHandle : Fin 3 → U32
  offsets : Fin 3 → U32

structure PatchDesc where
  dstBufHdl : U32
  dstOffset : U32
  srcBufHdl : U32
  srcOffset : U32
  deriving DecidableEq

namespace CamPacket

variable (packet : CamPacket)

def headerSize : U32 := Words.word packet.bytes 4

def cmdBufOffset : U32 := Words.word packet.bytes 24

def numCmdBuf : U32 := Words.word packet.bytes 28

def ioConfigsOffset : U32 := Words.word packet.bytes 32

def numIoConfigs : U32 := Words.word packet.bytes 36

def patchOffset : U32 := Words.word packet.bytes 40

def numPatches : U32 := Words.word packet.bytes 44

def kmdCmdBufIndex : U32 := Words.word packet.bytes 48

def kmdCmdBufOffset : U32 := Words.word packet.bytes 52

/-- The words of a record of `size` bytes at `pos`, if the record lies inside the copy. -/
def record? (pos size : Nat) : Option (Nat → U32) :=
  if pos + size ≤ packet.copied then some fun field => Words.word packet.bytes (pos + 4 * field)
  else none

def cmdDesc? (i : Nat) : Option CmdBufDesc :=
  (packet.record? (pktWoPayload + packet.cmdBufOffset.toNat + sizeofCmdBufDesc * i)
    sizeofCmdBufDesc).map fun field =>
      { memHandle := field 0, offset := field 1, size := field 2, length := field 3 }

/-- Some readers of the io descriptors cut the offset to whole words first, as
`(uint32_t *) &packet->payload_flex + packet->io_configs_offset / 4`, and some do not. -/
def ioCfg? (words : Bool) (i : Nat) : Option BufIoCfg :=
  let offset := packet.ioConfigsOffset.toNat
  (packet.record? (pktWoPayload + (if words then offset / 4 * 4 else offset) + sizeofBufIoCfg * i)
    sizeofBufIoCfg).map fun field =>
      { memHandle := fun plane => field plane, offsets := fun plane => field (3 + plane) }

def patchDesc? (i : Nat) : Option PatchDesc :=
  (packet.record? (pktWoPayload + packet.patchOffset.toNat / 4 * 4 + sizeofPatchDesc * i)
    sizeofPatchDesc).map fun field =>
      { dstBufHdl := field 0, dstOffset := field 1, srcBufHdl := field 2, srcOffset := field 3 }

end CamPacket

/-- `cam_packet_util_validate_packet`: whether it returns 0. -/
def validatePacket (packet : CamPacket) (remainLen : Nat) : Bool :=
  let size := packet.headerSize.toNat
  let sumCmdDesc := packet.numCmdBuf.toNat * sizeofCmdBufDesc
  let sumIoCfgs := packet.numIoConfigs.toNat * sizeofBufIoCfg
  let sumPatchDesc := packet.numPatches.toNat * sizeofPatchDesc
  if size = 0 ∨ remainLen < size ∨ size ≤ pktWoPayload then false
  else !(size < pktWoPayload + packet.cmdBufOffset.toNat + sumCmdDesc ||
    size < pktWoPayload + packet.ioConfigsOffset.toNat + sumIoCfgs ||
    size < pktWoPayload + packet.patchOffset.toNat + sumPatchDesc)

/-- `cam_packet_util_copy_pkt_to_kmd`. User space can change the packet at any time: `packetSize`
is the size read from its header first, and `packetU` what the packet holds when it is copied.
`kvzalloc` tells for which sizes there is memory. -/
def copyPktToKmd (kvzalloc : Nat → Bool) (packetSize : U32) (packetU : Nat → U8)
    (remainLen : Nat) : Except Int CamPacket :=
  if whole : sizeofCamPacket ≤ packetSize.toNat ∧ packetSize.toNat ≤ remainLen then
    if kvzalloc packetSize.toNat then
      let packet : CamPacket :=
        { copied := packetSize.toNat, bytes := Words.store packetU 4 packetSize,
          whole := whole.1 }
      if validatePacket packet remainLen then .ok packet else .error EINVAL
    else .error EINVAL
  else .error EINVAL

structure CamPacket.Validated (packet : CamPacket) : Prop where
  cmd : pktWoPayload + packet.cmdBufOffset.toNat + packet.numCmdBuf.toNat * sizeofCmdBufDesc ≤
    packet.copied
  io : pktWoPayload + packet.ioConfigsOffset.toNat + packet.numIoConfigs.toNat * sizeofBufIoCfg ≤
    packet.copied
  patches : pktWoPayload + packet.patchOffset.toNat + packet.numPatches.toNat * sizeofPatchDesc ≤
    packet.copied

theorem copyPktToKmd_ok {kvzalloc : Nat → Bool} {packetSize : U32} {packetU : Nat → U8}
    {remainLen : Nat} {packet : CamPacket}
    (accepted : copyPktToKmd kvzalloc packetSize packetU remainLen = .ok packet) :
    packet.headerSize.toNat = packet.copied ∧ packet.copied ≤ remainLen ∧
      validatePacket packet remainLen = true := by
  simp only [copyPktToKmd] at accepted
  split_ifs at accepted with fits room valid
  cases accepted
  refine ⟨?_, fits.2, valid⟩
  simp only [CamPacket.headerSize, Words.word_store]

theorem CamPacket.Validated.of_validatePacket {packet : CamPacket} {remainLen : Nat}
    (sized : packet.headerSize.toNat = packet.copied)
    (valid : validatePacket packet remainLen = true) : packet.Validated := by
  simp only [validatePacket, sized] at valid
  split_ifs at valid with bad
  simp only [Bool.not_eq_true', Bool.or_eq_false_iff, decide_eq_false_iff_not, not_lt] at valid
  exact { cmd := valid.1.1, io := valid.1.2, patches := valid.2 }

theorem CamPacket.validated {kvzalloc : Nat → Bool} {packetSize : U32} {packetU : Nat → U8}
    {remainLen : Nat} {packet : CamPacket}
    (accepted : copyPktToKmd kvzalloc packetSize packetU remainLen = .ok packet) :
    packet.Validated := by
  obtain ⟨sized, -, valid⟩ := copyPktToKmd_ok accepted
  exact .of_validatePacket sized valid

namespace CamPacket.Validated

variable {packet : CamPacket}

theorem record_isSome {start offset size count i : Nat} (before : start ≤ offset)
    (table : pktWoPayload + offset + count * size ≤ packet.copied) (entry : i < count) :
    (packet.record? (pktWoPayload + start + size * i) size).isSome := by
  have last : size * i + size ≤ count * size := by
    calc size * i + size = (i + 1) * size := by rw [Nat.add_mul, Nat.one_mul, Nat.mul_comm]
      _ ≤ count * size := Nat.mul_le_mul_right size entry
  have inside : pktWoPayload + start + size * i + size ≤ packet.copied := by omega
  simp [CamPacket.record?, inside]

theorem cmdDesc_isSome (valid : packet.Validated) {i : Nat} (entry : i < packet.numCmdBuf.toNat) :
    (packet.cmdDesc? i).isSome := by
  rw [CamPacket.cmdDesc?, Option.isSome_map]
  exact record_isSome (le_refl _) valid.cmd entry

theorem ioCfg_isSome (valid : packet.Validated) (words : Bool) {i : Nat}
    (entry : i < packet.numIoConfigs.toNat) : (packet.ioCfg? words i).isSome := by
  simp only [CamPacket.ioCfg?, Option.isSome_map]
  apply record_isSome _ valid.io entry
  cases words with
  | false => exact le_refl _
  | true => exact Nat.div_mul_le_self _ 4

theorem patchDesc_isSome (valid : packet.Validated) {i : Nat}
    (entry : i < packet.numPatches.toNat) : (packet.patchDesc? i).isSome := by
  rw [CamPacket.patchDesc?, Option.isSome_map]
  exact record_isSome (Nat.div_mul_le_self _ 4) valid.patches entry

end CamPacket.Validated

end VendorModules.PacketUtil
