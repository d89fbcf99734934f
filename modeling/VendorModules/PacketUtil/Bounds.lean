import VendorModules.PacketUtil.Blobs
import VendorModules.PacketUtil.Patches

/-! What an accepted packet leads to stays in bounds, the KMD buffer only when its offset is
right. -/

namespace VendorModules.PacketUtil

structure KmdBufInfo.Free (kmd : KmdBufInfo) (desc : CmdBufDesc) (mapped : Mapped) : Prop where
  inside : mapped.addr ≤ kmd.cpuAddr ∧ kmd.cpuAddr + kmd.size.toNat ≤ mapped.addr + mapped.len
  unused : ∀ addr, kmd.cpuAddr ≤ addr → addr < kmd.cpuAddr + kmd.size.toNat →
    ¬(mapped.addr + desc.offset.toNat ≤ addr ∧
      addr < mapped.addr + desc.offset.toNat + desc.length.toNat)

structure Contained (mem : MemMgr) (kvzalloc : Nat → Bool) (packet : CamPacket) : Prop where
  cmd : ∀ i < packet.numCmdBuf.toNat, (packet.cmdDesc? i).isSome
  io : ∀ words, ∀ i < packet.numIoConfigs.toNat, (packet.ioCfg? words i).isSome
  patch : ∀ i < packet.numPatches.toNat, (packet.patchDesc? i).isSome
  kmdRead : getKmdBuffer mem packet ≠ .error .outside
  kmd : ∀ kmd, getKmdBuffer mem packet = .ok kmd → ∃ desc mapped,
    packet.cmdDesc? packet.kmdCmdBufIndex.toNat = some desc ∧
      mem.cpuBuf desc.memHandle = .ok mapped ∧ kmd.Free desc mapped
  patches : ∀ patcher, (processPatches mem patcher packet).2 ≠ .outside ∧
    ∀ write ∈ (processPatches mem patcher packet).1, write.Inside mem patcher
  blobs : ∀ cmdBuf start length, copyCmdBuffer mem kvzalloc cmdBuf = .ok (start, length) →
    length = cmdBuf.length ∧ ∃ mapped, mem.cpuBuf cmdBuf.memHandle = .ok mapped ∧
      mapped.addr ≤ start ∧ start + length.toNat ≤ mapped.addr + mapped.len

def kmdStart (packet : CamPacket) (desc : CmdBufDesc) : Nat :=
  4 * (desc.offset.toNat / 4 + packet.kmdCmdBufOffset.toNat / 4)

/-- What is free fits between the KMD offset and the end of the buffer, and lies behind what is
used (or, cut to words, before the command). -/
def KmdFits (packet : CamPacket) (desc : CmdBufDesc) (mapped : Mapped) : Prop :=
  let free := desc.size.toNat - desc.length.toNat
  kmdStart packet desc + free ≤ mapped.len ∧
    (free = 0 ∨ desc.length = 0 ∨ desc.offset.toNat + desc.length.toNat ≤ kmdStart packet desc ∨
      kmdStart packet desc + free ≤ desc.offset.toNat)

theorem kmdBufOf_free_iff {mem : MemMgr} {packet : CamPacket} {desc : CmdBufDesc}
    {mapped : Mapped} (source : KmdSource mem packet desc mapped) :
    (kmdBufOf packet desc mapped).Free desc mapped ↔ KmdFits packet desc mapped := by
  have used : desc.length.toNat ≤ desc.size.toNat := source.used
  have size : (kmdBufOf packet desc mapped).size.toNat = desc.size.toNat - desc.length.toNat :=
    BitVec.toNat_sub_of_le source.used
  have start : (kmdBufOf packet desc mapped).cpuAddr = mapped.addr + kmdStart packet desc := rfl
  have none_used : desc.length = 0 ↔ desc.length.toNat = 0 := by
    rw [← BitVec.toNat_inj]
    rfl
  unfold KmdFits
  rw [none_used]
  constructor
  · intro region
    have fits := region.inside.2
    rw [size, start] at fits
    refine ⟨by omega, ?_⟩
    by_contra overlap
    -- the last of the two starts is in both
    by_cases later : desc.offset.toNat ≤ kmdStart packet desc
    · apply region.unused (mapped.addr + kmdStart packet desc)
      · rw [start]
      · rw [start, size]
        omega
      · omega
    · apply region.unused (mapped.addr + desc.offset.toNat)
      · rw [start]
        omega
      · rw [start, size]
        omega
      · omega
  · rintro ⟨fits, apart⟩
    refine ⟨?_, ?_⟩
    · rw [size, start]
      omega
    · intro addr from_start to_end both
      rw [start] at from_start to_end
      rw [size] at to_end
      omega

/-- After the copy is accepted, everything stays in bounds but what depends on the KMD offset,
and a walk over blobs that are longer than a blob short of 2³² bytes. -/
theorem accepted_contained_iff {kvzalloc : Nat → Bool} {packetSize : U32} {packetU : Nat → U8}
    {remainLen : Nat} {packet : CamPacket}
    (accepted : copyPktToKmd kvzalloc packetSize packetU remainLen = .ok packet)
    (mem : MemMgr) (length : U32) :
    (Contained mem kvzalloc packet ∧ Walks length) ↔
      (∀ desc mapped, KmdSource mem packet desc mapped → KmdFits packet desc mapped) ∧
        length.toNat ≤ blobLengthMax := by
  have valid := CamPacket.validated accepted
  rw [walks_iff]
  apply and_congr_left
  intro _
  constructor
  · intro contained desc mapped source
    obtain ⟨desc', mapped', read, buffer, free⟩ :=
      contained.kmd _ (getKmdBuffer_ok_iff.mpr ⟨desc, mapped, source, rfl⟩)
    cases Option.some.inj (source.read.symm.trans read)
    cases Except.ok.inj (source.buffer.symm.trans buffer)
    exact (kmdBufOf_free_iff source).mp free
  · intro fits
    exact
      { cmd := fun i entry => valid.cmdDesc_isSome entry
        io := fun words i entry => valid.ioCfg_isSome words entry
        patch := fun i entry => valid.patchDesc_isSome entry
        kmdRead := getKmdBuffer_ne_outside valid
        kmd := by
          intro kmd got
          obtain ⟨desc, mapped, source, rfl⟩ := getKmdBuffer_ok_iff.mp got
          exact ⟨desc, mapped, source.read, source.buffer,
            (kmdBufOf_free_iff source).mpr (fits desc mapped source)⟩
        patches := fun patcher => processPatches_inside valid
        blobs := fun cmdBuf start length copied => copyCmdBuffer_inside copied }

def halfUsed (kmdOffset : U32) : Nat → U8 :=
  Lib.Words.spread fun k =>
    if k = 1 then 80 else if k = 7 then 1 else if k = 13 then kmdOffset
    -- the command: handle 1, offset 0, size 16, length 8
    else if k = 14 then 1 else if k = 16 then 16 else if k = 17 then 8 else 0

def sixteenBytes : MemMgr :=
  { cpuBuf := fun _ => .ok { addr := 4096, len := 16 }
    ioBuf := fun _ _ => .error EINVAL
    isSecureBuf := fun _ => false }

def halfUsedPacket (kmdOffset : U32) : CamPacket :=
  { copied := 80, bytes := Lib.Words.store (halfUsed kmdOffset) 4 80, whole := by decide }

theorem halfUsed_accepted (kmdOffset : U32)
    (valid : validatePacket (halfUsedPacket kmdOffset) 80 = true) :
    copyPktToKmd (fun _ => true) 80 (halfUsed kmdOffset) 80 = .ok (halfUsedPacket kmdOffset) := by
  have whole : sizeofCamPacket ≤ (80 : U32).toNat ∧ (80 : U32).toNat ≤ 80 := by decide
  rw [copyPktToKmd, dif_pos whole, if_pos rfl]
  exact if_pos valid

/-- With the KMD offset behind what is used. -/
theorem behind_contained :
    (Contained sixteenBytes (fun _ => true) (halfUsedPacket 8) ∧ Walks 64) ↔
      (∀ desc mapped, KmdSource sixteenBytes (halfUsedPacket 8) desc mapped →
        KmdFits (halfUsedPacket 8) desc mapped) ∧ (64 : U32).toNat ≤ blobLengthMax :=
  accepted_contained_iff (halfUsed_accepted 8 rfl) sixteenBytes 64

/-- With a KMD offset of 0, the KMD buffer starts on the bytes that the command uses. -/
theorem kmd_on_used :
    ¬∀ (kvzalloc : Nat → Bool) (packetSize : U32) (packetU : Nat → U8) (remainLen : Nat)
      (packet : CamPacket) (mem : MemMgr) (length : U32),
      copyPktToKmd kvzalloc packetSize packetU remainLen = .ok packet →
        Contained mem kvzalloc packet ∧ Walks length := by
  intro claimed
  have contained :=
    (claimed _ _ _ _ _ sixteenBytes 64 (halfUsed_accepted 0 rfl)).1
  obtain ⟨desc, mapped, read, buffer, free⟩ := contained.kmd _ rfl
  cases Option.some.inj read
  cases Except.ok.inj buffer
  exact free.unused 4096 (by decide) (by decide) (by decide)

end VendorModules.PacketUtil
