import VendorModules.PacketUtil.Packet

/-!
# The buffers a packet refers to

Descriptors name buffers by handle. The memory manager knows where a buffer is mapped for the
CPU, and under which io address a device sees it.
-/

namespace VendorModules.PacketUtil

structure Mapped where
  addr : Nat
  len : Nat
  deriving DecidableEq

structure IoMapped where
  iova : U64
  size : Nat
  flags : U32
  deriving DecidableEq

/-- What `cam_mem_get_cpu_buf`, `cam_mem_get_io_buf` and `cam_mem_is_secure_buf` answer. The
first two fail with a negative error code. -/
structure MemMgr where
  cpuBuf : U32 → Except Int Mapped
  ioBuf : U32 → U32 → Except Int IoMapped
  isSecureBuf : U32 → Bool

structure KmdBufInfo where
  handle : U32
  cpuAddr : Nat
  offset : U32
  size : U32
  usedBytes : U32
  deriving DecidableEq

def validateCmdDesc (desc : CmdBufDesc) : Bool :=
  !(desc.size < desc.length || desc.memHandle.toInt ≤ 0)

def getCmdMemAddr (mem : MemMgr) (handle : U32) : Except Int Mapped :=
  match mem.cpuBuf handle with
  | .error _ => .error EINVAL
  | .ok mapped => if mapped.addr ≠ 0 ∧ mapped.len ≠ 0 then .ok mapped else .error ENOMEM

/-- `cam_packet_util_get_kmd_buffer`. The start moves on from the buffer's by whole words, for
`cpu_addr` is a `uint32_t *`. -/
def getKmdBuffer (mem : MemMgr) (packet : CamPacket) : Except Stop KmdBufInfo :=
  if packet.numCmdBuf = 0 then .error (.refused EINVAL)
  else if packet.numCmdBuf ≤ packet.kmdCmdBufIndex then .error (.refused EINVAL)
  else
    match packet.cmdDesc? packet.kmdCmdBufIndex.toNat with
    | none => .error .outside
    | some cmdDesc =>
      if validateCmdDesc cmdDesc then
        match getCmdMemAddr mem cmdDesc.memHandle with
        | .error rc => .error (.refused rc)
        | .ok mapped =>
          let offset := cmdDesc.offset.toNat
          let kmdOffset := packet.kmdCmdBufOffset.toNat
          if mapped.len ≤ offset ∨ mapped.len - offset < cmdDesc.size.toNat then
            .error (.refused EINVAL)
          else if mapped.len - offset ≤ kmdOffset then .error (.refused EINVAL)
          else .ok
            { handle := cmdDesc.memHandle, cpuAddr := mapped.addr + 4 * (offset / 4 + kmdOffset / 4),
              offset := cmdDesc.offset + packet.kmdCmdBufOffset,
              size := cmdDesc.size - cmdDesc.length, usedBytes := 0 }
      else .error (.refused EINVAL)

/-- An entry of `struct cam_patch_unique_src_buf_tbl`. -/
structure SrcBuf where
  hdl : U32 := 0
  iova : U64 := 0
  bufSize : Nat := 0
  flags : U32 := 0
  deriving DecidableEq

def uniqueSrcHdlMax : Nat := 50

/-- The search for a source handle in the table: the entry it is found in, and the index at
which the search ended. -/
def findSrcBuf (bufHdl : U32) : List SrcBuf → Nat → Option SrcBuf × Nat
  | [], idx => (none, idx)
  | entry :: rest, idx =>
    if bufHdl = entry.hdl then (some entry, idx)
    else if entry.hdl = 0 ∨ entry.iova = 0 then (none, idx)
    else findSrcBuf bufHdl rest (idx + 1)

/-- `cam_packet_util_get_patch_iova`: what is known of the source buffer, and the table. -/
def getPatchIova (mem : MemMgr) (tbl : List SrcBuf) (hdl bufHdl : U32) :
    Except Int (SrcBuf × List SrcBuf) :=
  match findSrcBuf bufHdl tbl 0 with
  | (some entry, _) => .ok (entry, tbl)
  | (none, idx) =>
    match mem.ioBuf bufHdl hdl with
    | .error rc => .error rc
    | .ok io =>
      let entry : SrcBuf :=
        { hdl := bufHdl, iova := io.iova, bufSize := io.size, flags := io.flags }
      .ok (entry, if (tbl[idx]?).any fun old => old.hdl = 0 then tbl.set idx entry else tbl)

structure PatchWrite where
  desc : PatchDesc
  dstAddr : Nat
  srcAddr : U64
  value : U32
  deriving DecidableEq

/-- The word that stands for a source address. With expanded memory, devices see buffers that
are not shared with the CDM in units of 256 bytes. -/
def patchedValue (expanded : Bool) (flags : U32) (temp : U64) : U32 :=
  if expanded && !(flags.getLsbD 11 || flags.getLsbD 6) then (temp >>> 8).setWidth 32
  else temp.setWidth 32

/-- Who asks for the io addresses of the sources, and whether `exp_mem` holds and the memory is
expanded. -/
structure Patcher where
  iommuHdl : U32
  secMmuHdl : U32
  expanded : Bool

def Patcher.hdl (patcher : Patcher) (mem : MemMgr) (bufHdl : U32) : U32 :=
  if mem.isSecureBuf bufHdl then patcher.secMmuHdl else patcher.iommuHdl

/-- The body of the loop of `cam_packet_util_process_patches`. -/
def processPatch (mem : MemMgr) (patcher : Patcher) (tbl : List SrcBuf) (desc : PatchDesc) :
    Except Int (PatchWrite × List SrcBuf) :=
  match getPatchIova mem tbl (patcher.hdl mem desc.srcBufHdl) desc.srcBufHdl with
  | .error rc => .error rc
  | .ok (src, tbl) =>
    if src.bufSize ≤ desc.srcOffset.toNat then .error EINVAL
    else
      match mem.cpuBuf desc.dstBufHdl with
      | .error rc => .error rc
      | .ok dst =>
        -- the return value of a call that has succeeded
        if dst.addr = 0 ∨ dst.len = 0 then .error 0
        else if dst.len < 8 ∨ dst.len - 8 < desc.dstOffset.toNat then .error EINVAL
        else
          let temp := src.iova + desc.srcOffset.setWidth 64
          .ok ({ desc := desc, dstAddr := dst.addr + desc.dstOffset.toNat, srcAddr := temp,
                 value := patchedValue patcher.expanded src.flags temp }, tbl)

inductive PatchEnd
  | returned (rc : Int)
  | outside
  deriving DecidableEq

def patchLoop (mem : MemMgr) (patcher : Patcher) (packet : CamPacket) :
    Nat → Nat → List SrcBuf → List PatchWrite × PatchEnd
  | 0, _, _ => ([], .returned 0)
  | left + 1, i, tbl =>
    match packet.patchDesc? i with
    | none => ([], .outside)
    | some desc =>
      match processPatch mem patcher tbl desc with
      | .error rc => ([], .returned rc)
      | .ok (write, tbl) =>
        let later := patchLoop mem patcher packet left (i + 1) tbl
        (write :: later.1, later.2)

/-- `cam_packet_util_process_patches`: the words written, and how it ends. -/
def processPatches (mem : MemMgr) (patcher : Patcher) (packet : CamPacket) :
    List PatchWrite × PatchEnd :=
  patchLoop mem patcher packet packet.numPatches.toNat 0 (List.replicate uniqueSrcHdlMax {})

/-! What the KMD buffer is, when there is one. -/

structure KmdSource (mem : MemMgr) (packet : CamPacket) (desc : CmdBufDesc) (mapped : Mapped) :
    Prop where
  index : packet.kmdCmdBufIndex.toNat < packet.numCmdBuf.toNat
  read : packet.cmdDesc? packet.kmdCmdBufIndex.toNat = some desc
  used : desc.length ≤ desc.size
  handle : 0 < desc.memHandle.toInt
  buffer : mem.cpuBuf desc.memHandle = .ok mapped
  present : mapped.addr ≠ 0
  offset : desc.offset.toNat < mapped.len
  size : desc.size.toNat ≤ mapped.len - desc.offset.toNat
  kmdOffset : packet.kmdCmdBufOffset.toNat < mapped.len - desc.offset.toNat

theorem getCmdMemAddr_ok_iff {mem : MemMgr} {handle : U32} {mapped : Mapped} :
    getCmdMemAddr mem handle = .ok mapped ↔
      mem.cpuBuf handle = .ok mapped ∧ mapped.addr ≠ 0 ∧ mapped.len ≠ 0 := by
  unfold getCmdMemAddr
  cases answer : mem.cpuBuf handle with
  | error rc => simp
  | ok found =>
    simp only [Except.ok.injEq]
    split_ifs with good
    · constructor
      · intro same
        cases same
        exact ⟨rfl, good⟩
      · rintro ⟨rfl, -⟩
        rfl
    · constructor
      · intro same
        cases same
      · rintro ⟨rfl, good'⟩
        exact absurd good' good

/-- The region between the KMD offset, cut to words, and the end of what the command leaves
free of its size. -/
def kmdBufOf (packet : CamPacket) (desc : CmdBufDesc) (mapped : Mapped) : KmdBufInfo :=
  { handle := desc.memHandle
    cpuAddr := mapped.addr + 4 * (desc.offset.toNat / 4 + packet.kmdCmdBufOffset.toNat / 4)
    offset := desc.offset + packet.kmdCmdBufOffset
    size := desc.size - desc.length
    usedBytes := 0 }

theorem validateCmdDesc_iff {desc : CmdBufDesc} :
    validateCmdDesc desc = true ↔ desc.length ≤ desc.size ∧ 0 < desc.memHandle.toInt := by
  simp [validateCmdDesc]

theorem getKmdBuffer_ok_iff {mem : MemMgr} {packet : CamPacket} {kmd : KmdBufInfo} :
    getKmdBuffer mem packet = .ok kmd ↔
      ∃ desc mapped, KmdSource mem packet desc mapped ∧ kmd = kmdBufOf packet desc mapped := by
  constructor
  · intro got
    unfold getKmdBuffer at got
    split_ifs at got with empty beyond
    cases read : packet.cmdDesc? packet.kmdCmdBufIndex.toNat with
    | none => simp only [read, reduceCtorEq] at got
    | some desc =>
      simp only [read] at got
      split_ifs at got with valid
      cases answer : getCmdMemAddr mem desc.memHandle with
      | error rc => simp only [answer, reduceCtorEq] at got
      | ok mapped =>
        simp only [answer] at got
        split_ifs at got with large far
        obtain ⟨used, handle⟩ := validateCmdDesc_iff.mp valid
        obtain ⟨buffer, present, -⟩ := getCmdMemAddr_ok_iff.mp answer
        refine ⟨desc, mapped, ?_, (Except.ok.inj got).symm⟩
        exact
          { index := BitVec.not_le.mp beyond, read := read, used := used, handle := handle
            buffer := buffer, present := present, offset := by omega, size := by omega
            kmdOffset := by omega }
  · rintro ⟨desc, mapped, source, rfl⟩
    have index := source.index
    have offset := source.offset
    have size := source.size
    have kmdOffset := source.kmdOffset
    have some_buf : ¬packet.numCmdBuf = 0 := by
      intro none_buf
      simp [none_buf] at index
    have within : ¬packet.numCmdBuf ≤ packet.kmdCmdBufIndex := by
      rw [BitVec.le_def]
      omega
    have valid := validateCmdDesc_iff.mpr ⟨source.used, source.handle⟩
    have answer : getCmdMemAddr mem desc.memHandle = .ok mapped :=
      getCmdMemAddr_ok_iff.mpr ⟨source.buffer, source.present, by omega⟩
    have fits : ¬(mapped.len ≤ desc.offset.toNat ∨
        mapped.len - desc.offset.toNat < desc.size.toNat) := by omega
    have near : ¬mapped.len - desc.offset.toNat ≤ packet.kmdCmdBufOffset.toNat := by omega
    simp only [getKmdBuffer, some_buf, within, if_false, source.read, valid, if_true, answer, fits,
      near, kmdBufOf]

theorem getKmdBuffer_ne_outside {mem : MemMgr} {packet : CamPacket} (valid : packet.Validated) :
    getKmdBuffer mem packet ≠ .error .outside := by
  intro stopped
  unfold getKmdBuffer at stopped
  split_ifs at stopped with empty beyond
  · simp at stopped
  · simp at stopped
  · have entry : packet.kmdCmdBufIndex.toNat < packet.numCmdBuf.toNat :=
      BitVec.not_le.mp beyond
    obtain ⟨desc, read⟩ := Option.isSome_iff_exists.mp (valid.cmdDesc_isSome entry)
    simp only [read] at stopped
    split_ifs at stopped with sound
    · cases answer : getCmdMemAddr mem desc.memHandle with
      | error rc => simp [answer] at stopped
      | ok mapped =>
        simp only [answer] at stopped
        split_ifs at stopped <;> simp at stopped
    · simp at stopped

end VendorModules.PacketUtil
