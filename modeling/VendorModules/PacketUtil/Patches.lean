import VendorModules.PacketUtil.Buffers

/-! Every patch writes inside its destination and points into its source. -/

namespace VendorModules.PacketUtil

variable {mem : MemMgr} {patcher : Patcher}

/-- The four bytes written lie inside the destination, and the address is one of the source's. -/
structure PatchWrite.Inside (mem : MemMgr) (patcher : Patcher) (write : PatchWrite) : Prop where
  dst : ∃ dst, mem.cpuBuf write.desc.dstBufHdl = .ok dst ∧ dst.addr ≤ write.dstAddr ∧
    write.dstAddr + 4 ≤ dst.addr + dst.len
  src : ∃ src, mem.ioBuf write.desc.srcBufHdl (patcher.hdl mem write.desc.srcBufHdl) = .ok src ∧
    (write.srcAddr - src.iova).toNat < src.size

def SrcBuf.Known (mem : MemMgr) (patcher : Patcher) (entry : SrcBuf) : Prop :=
  entry = {} ∨ mem.ioBuf entry.hdl (patcher.hdl mem entry.hdl) =
    .ok { iova := entry.iova, size := entry.bufSize, flags := entry.flags }

theorem findSrcBuf_some {bufHdl : U32} {tbl : List SrcBuf} {idx : Nat} {entry : SrcBuf}
    (found : (findSrcBuf bufHdl tbl idx).1 = some entry) : entry ∈ tbl ∧ entry.hdl = bufHdl := by
  induction tbl generalizing idx with
  | nil => simp [findSrcBuf] at found
  | cons first rest ih =>
    unfold findSrcBuf at found
    split_ifs at found with same stop
    · cases found
      exact ⟨List.mem_cons_self, same.symm⟩
    · obtain ⟨held, hdl⟩ := ih found
      exact ⟨List.mem_cons_of_mem first held, hdl⟩

theorem getPatchIova_known {tbl : List SrcBuf} {bufHdl : U32} {src : SrcBuf} {after : List SrcBuf}
    (known : ∀ entry ∈ tbl, entry.Known mem patcher)
    (got : getPatchIova mem tbl (patcher.hdl mem bufHdl) bufHdl = .ok (src, after)) :
    src.Known mem patcher ∧ src.hdl = bufHdl ∧ ∀ entry ∈ after, entry.Known mem patcher := by
  unfold getPatchIova at got
  cases search : findSrcBuf bufHdl tbl 0 with
  | mk found idx =>
    cases found with
    | some entry =>
      simp only [search, Except.ok.injEq, Prod.mk.injEq] at got
      obtain ⟨rfl, rfl⟩ := got
      obtain ⟨held, hdl⟩ := findSrcBuf_some (congrArg Prod.fst search)
      exact ⟨known entry held, hdl, known⟩
    | none =>
      simp only [search] at got
      cases answer : mem.ioBuf bufHdl (patcher.hdl mem bufHdl) with
      | error rc => simp [answer] at got
      | ok io =>
        simp only [answer, Except.ok.injEq, Prod.mk.injEq] at got
        obtain ⟨rfl, rfl⟩ := got
        refine ⟨Or.inr answer, rfl, ?_⟩
        intro entry held
        split_ifs at held with free
        · rcases List.mem_or_eq_of_mem_set held with old | rfl
          · exact known entry old
          · exact Or.inr answer
        · exact known entry held

theorem processPatch_inside {tbl after : List SrcBuf} {desc : PatchDesc} {write : PatchWrite}
    (known : ∀ entry ∈ tbl, entry.Known mem patcher)
    (patched : processPatch mem patcher tbl desc = .ok (write, after)) :
    write.Inside mem patcher ∧ ∀ entry ∈ after, entry.Known mem patcher := by
  unfold processPatch at patched
  cases looked : getPatchIova mem tbl (patcher.hdl mem desc.srcBufHdl) desc.srcBufHdl with
  | error rc => simp [looked] at patched
  | ok result =>
    obtain ⟨src, tbl'⟩ := result
    obtain ⟨src_known, hdl, known'⟩ := getPatchIova_known known looked
    simp only [looked] at patched
    split_ifs at patched with beyond
    cases answer : mem.cpuBuf desc.dstBufHdl with
    | error rc => simp [answer] at patched
    | ok dst =>
      simp only [answer] at patched
      split_ifs at patched with absent small
      simp only [Except.ok.injEq, Prod.mk.injEq] at patched
      obtain ⟨rfl, rfl⟩ := patched
      refine ⟨⟨⟨dst, answer, by simp only; omega, by simp only; omega⟩, ?_⟩, known'⟩
      rcases src_known with empty | io
      · rw [empty] at beyond
        exact absurd (Nat.zero_le _) beyond
      · rw [hdl] at io
        refine ⟨_, io, ?_⟩
        have offset : src.iova + desc.srcOffset.setWidth 64 - src.iova =
            desc.srcOffset.setWidth 64 := by
          rw [BitVec.add_comm, BitVec.add_sub_cancel]
        have width : (desc.srcOffset.setWidth 64).toNat = desc.srcOffset.toNat := by
          rw [BitVec.toNat_setWidth]
          apply Nat.mod_eq_of_lt
          have := desc.srcOffset.isLt
          omega
        simp only [offset, width]
        omega

theorem patchLoop_inside {packet : CamPacket} (valid : packet.Validated) {left i : Nat}
    {tbl : List SrcBuf} (entries : i + left ≤ packet.numPatches.toNat)
    (known : ∀ entry ∈ tbl, entry.Known mem patcher) :
    (patchLoop mem patcher packet left i tbl).2 ≠ .outside ∧
      ∀ write ∈ (patchLoop mem patcher packet left i tbl).1, write.Inside mem patcher := by
  induction left generalizing i tbl with
  | zero => simp [patchLoop]
  | succ left ih =>
    have entry : i < packet.numPatches.toNat := by omega
    obtain ⟨desc, read⟩ := Option.isSome_iff_exists.mp (valid.patchDesc_isSome entry)
    simp only [patchLoop, read]
    cases patched : processPatch mem patcher tbl desc with
    | error rc => simp
    | ok result =>
      obtain ⟨write, after⟩ := result
      obtain ⟨inside, known'⟩ := processPatch_inside known patched
      obtain ⟨ended, later⟩ := ih (show i + 1 + left ≤ _ by omega) known'
      refine ⟨ended, ?_⟩
      intro other held
      rcases List.mem_cons.mp held with rfl | held
      · exact inside
      · exact later other held

theorem processPatches_inside {packet : CamPacket} (valid : packet.Validated) :
    (processPatches mem patcher packet).2 ≠ .outside ∧
      ∀ write ∈ (processPatches mem patcher packet).1, write.Inside mem patcher := by
  apply patchLoop_inside valid (by omega)
  intro entry held
  exact Or.inl (List.eq_of_mem_replicate held)

end VendorModules.PacketUtil
