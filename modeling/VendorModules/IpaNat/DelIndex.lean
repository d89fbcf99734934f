import VendorModules.IpaNat.DelRule

namespace VendorModules.IpaNat

open VendorModules.Lib

/-! ### Deleting from the index table -/

/-- The record `m` is gone from the index table. The record `j` has taken over
what `m` held; all others hold what they held. -/
structure IndexDeleted (index index' : IpaTable IndxTblRule)
    (chain chain' : Nat → List Nat) (j m : Nat) : Prop where
  same : IpaTable.SameTable index index'
  shaped : index'.Shaped indexEntryInterface chain'
  busy : ∀ i, index'.Busy indexEntryInterface i ↔
    index.Busy indexEntryInterface i ∧ i ≠ m
  tblEntry : ∀ i, i ≠ m → (index'.entries i).tblEntry =
    (index.entries (if i = j then m else i)).tblEntry
  stays : ∀ c i, i ≠ m → i ∈ chain c → i ∈ chain' c

namespace IpaTable

theorem deleteEntry_entries_index (index : IpaTable IndxTblRule) {p e n i : Nat}
    (different : i ≠ e) :
    (index.deleteEntry indexEntryInterface ⟨p, e, n⟩ false).entries i =
      index.entries i := by
  simp only [deleteEntry, eraseEntry_entries, Function.update_of_ne different]
  by_cases last : n = 0
  · simp [last]
  · by_cases atN : i = n
    · subst atN
      simp [last, setPrevIndex, setEntry, indexEntryInterface]
    · simp [last, atN, setPrevIndex, setEntry]

end IpaTable

namespace Ip4TableCache

theorem resetIndexMeta_same (index : IpaTable IndxTblRule) (i : Nat) :
    IpaTable.SameTable index (resetIndexMeta index i) := by
  unfold resetIndexMeta
  split <;> exact ⟨rfl, rfl, rfl, rfl⟩

@[simp] theorem resetIndexMeta_entries (index : IpaTable IndxTblRule) (i : Nat) :
    (resetIndexMeta index i).entries = index.entries := by
  unfold resetIndexMeta
  split <;> rfl

theorem resetIndexMeta_metaPrev (index : IpaTable IndxTblRule) (m k : Nat) :
    (resetIndexMeta index m).metaPrev k =
      if m ≥ index.tableEntries ∧ k = m - index.tableEntries then 0
      else index.metaPrev k := by
  by_cases overflow : m ≥ index.tableEntries
  · simp [resetIndexMeta, overflow, Function.update_apply]
  · simp [resetIndexMeta, overflow]

theorem resetIndexMeta_shaped {index : IpaTable IndxTblRule}
    {chain : Nat → List Nat} {m : Nat}
    (shaped : index.Shaped indexEntryInterface chain)
    (free : index.isFilled indexEntryInterface m = false) :
    (resetIndexMeta index m).Shaped indexEntryInterface chain := by
  apply shaped.congr (resetIndexMeta_same index m)
  · intro i _
    rw [IpaTable.isFilled, resetIndexMeta_entries]
    rfl
  · intro i _
    rw [IpaTable.nextIndex, resetIndexMeta_entries]
    rfl
  · intro i used
    simp only [IpaTable.prevIndex, resetIndexMeta_entries,
      (resetIndexMeta_same index m).tableEntries, indexEntryInterface,
      resetIndexMeta_metaPrev]
    by_cases overflow : i ≥ index.tableEntries
    · have busy := used.resolve_right (Nat.not_lt.mpr overflow)
      have different : i ≠ m := by
        rintro rfl
        rw [busy.2] at free
        cases free
      rw [if_pos overflow, if_pos overflow, if_neg]
      rintro ⟨mOverflow, same⟩
      omega
    · rw [if_neg overflow, if_neg overflow]
  · unfold resetIndexMeta
    split <;> rfl
  · unfold resetIndexMeta
    split <;> rfl

private theorem index_unlinked {index posted index' : IpaTable IndxTblRule}
    {chain : Nat → List Nat} {j m p n : Nat}
    (shaped : index.Shaped indexEntryInterface chain)
    (busy : index.Busy indexEntryInterface m)
    (hp : index.prevIndex indexEntryInterface m = p)
    (hn : index.nextIndex indexEntryInterface m = n)
    (removable : p ≠ 0 ∨ n = 0)
    (same : IpaTable.SameTable index posted)
    (filled : ∀ i, i ≠ m → posted.isFilled indexEntryInterface i =
      index.isFilled indexEntryInterface i)
    (next : ∀ i, i ≠ m → posted.nextIndex indexEntryInterface i =
      if p ≠ 0 ∧ i = p then n else index.nextIndex indexEntryInterface i)
    (tblEntry : ∀ i, i ≠ m → (posted.entries i).tblEntry =
      (index.entries (if i = j then m else i)).tblEntry)
    (metaPrev : posted.metaPrev = index.metaPrev)
    (tblCnt : posted.curTblCnt = index.curTblCnt)
    (expnCnt : posted.curExpnTblCnt = index.curExpnTblCnt)
    (result : index' = resetIndexMeta
      (posted.deleteEntry indexEntryInterface ⟨p, m, n⟩ false) m) :
    ∃ chain', IndexDeleted index index' chain chain' j m := by
  have unlinked : index.Unlinked indexEntryInterface
      (posted.deleteEntry indexEntryInterface ⟨p, m, n⟩ false) m p n := by
    apply IpaTable.deleteEntry_unlinked indexEntryInterface_lawful same filled
      next _ tblCnt expnCnt
    · intro nonzero
      exact hn ▸ shaped.next_overflow busy (hn ▸ nonzero)
    · intro i _
      simp only [IpaTable.prevIndex, indexEntryInterface, metaPrev,
        same.tableEntries]
  have entries : ∀ i, i ≠ m →
      (posted.deleteEntry indexEntryInterface ⟨p, m, n⟩ false).entries i =
        posted.entries i :=
    fun i different => IpaTable.deleteEntry_entries_index posted different
  generalize posted.deleteEntry indexEntryInterface ⟨p, m, n⟩ false = freed
    at unlinked entries result
  obtain ⟨b, l, r, shape, shaped'⟩ := shaped.unlink busy
    (by rwa [hp, hn]) (by rwa [hp, hn])
  have free : freed.isFilled indexEntryInterface m = false := by
    rw [unlinked.filled, if_pos rfl]
  subst result
  refine ⟨_, unlinked.same.trans (resetIndexMeta_same freed m),
    resetIndexMeta_shaped shaped' free, ?_, ?_,
    fun c i different member => mem_shortened shape different member⟩
  · intro i
    have filledEq : (resetIndexMeta freed m).isFilled indexEntryInterface i =
        freed.isFilled indexEntryInterface i := by
      rw [IpaTable.isFilled, resetIndexMeta_entries]
      rfl
    rw [IpaTable.Busy, (resetIndexMeta_same freed m).totTblEnts,
      unlinked.same.totTblEnts, filledEq, unlinked.filled]
    by_cases atM : i = m
    · simp [atM]
    · simp [atM, IpaTable.Busy]
  · intro i different
    rw [resetIndexMeta_entries, entries i different, tblEntry i different]

theorem finishDelete_indexTable {pdns : Pdns} {tbl tbl' : Ip4TableCache}
    (help : tbl.table.dmaHelp = tableDmaHelp)
    {tableIterator iterator : TableIterator} {cmd : DmaCmd}
    {ret : Except Errno Unit}
    (result : finishDelete pdns tbl tableIterator iterator cmd true =
      (tbl', ret)) :
    tbl'.indexTable = resetIndexMeta
      ((tbl.applyDma cmd).indexTable.deleteEntry indexEntryInterface iterator
        false) iterator.currIndex := by
  simp only [finishDelete, Bool.not_true, Bool.false_eq_true, if_false,
    Prod.mk.injEq] at result
  rw [← result.1]
  simp only [createDeleteCommand_rule_indexTable _ help]

section Posted

variable {tbl : Ip4TableCache} {chain : Nat → List Nat} {j : Nat}

theorem indexDeleted_self (help : tbl.indexTable.dmaHelp = indexTableDmaHelp)
    (shaped : tbl.indexTable.Shaped indexEntryInterface chain)
    (busy : tbl.indexTable.Busy indexEntryInterface j) {p n : Nat}
    (hp : tbl.indexTable.prevIndex indexEntryInterface j = p)
    (hn : tbl.indexTable.nextIndex indexEntryInterface j = n)
    (removable : p ≠ 0 ∨ n = 0) {index' : IpaTable IndxTblRule}
    (result : index' = resetIndexMeta
      ((tbl.applyDma (tbl.indexTable.createDeleteCommand indexEntryInterface []
        ⟨p, j, n⟩)).indexTable.deleteEntry indexEntryInterface ⟨p, j, n⟩
          false) j) :
    ∃ chain', IndexDeleted tbl.indexTable index' chain chain' j j := by
  have held : ∀ i, i ≠ j → (if i = j then j else i) = i := fun i different =>
    if_neg different
  by_cases head : p = 0
  · have single : n = 0 := removable.resolve_left (not_not.mpr head)
    subst head single
    have posted : tbl.indexTable.createDeleteCommand indexEntryInterface []
        ⟨0, j, 0⟩ = tbl.indexTable.addDmaCmd .updateHead j 0 [] := rfl
    rw [posted, applyDma_indexCmd rfl help busy.1, applyDma_nil,
      dmaIndex_indexTable] at result
    apply index_unlinked shaped busy hp hn removable
      (tbl.indexTable.setEntry_same _ _) _ _ _ rfl rfl rfl result
    · intro i different
      rw [IpaTable.isFilled_setEntry, if_neg different]
    · intro i different
      rw [IpaTable.nextIndex_setEntry, if_neg different]
      simp
    · intro i different
      rw [IpaTable.setEntry_entries, if_neg different, held i different]
  · have pBusy : tbl.indexTable.Busy indexEntryInterface p :=
      hp ▸ (shaped.busy_prev busy (hp ▸ head)).1
    have posted : tbl.indexTable.createDeleteCommand indexEntryInterface []
        ⟨p, j, n⟩ = tbl.indexTable.addDmaCmd .updateEntry p n [] := by
      simp only [IpaTable.createDeleteCommand, if_neg head]
    rw [posted, applyDma_indexCmd rfl help pBusy.1, applyDma_nil,
      dmaIndex_indexTable] at result
    apply index_unlinked shaped busy hp hn removable
      (tbl.indexTable.setEntry_same _ _) _ _ _ rfl rfl rfl result
    · intro i _
      rw [IpaTable.isFilled_setEntry]
      split
      · next atP => rw [atP]; rfl
      · rfl
    · intro i _
      rw [IpaTable.nextIndex_setEntry]
      by_cases atP : i = p
      · rw [if_pos atP, if_pos ⟨head, atP⟩]
        rfl
      · rw [if_neg atP, if_neg fun h => atP h.2]
    · intro i different
      rw [IpaTable.setEntry_entries, held i different]
      split
      · next atP => rw [atP]; rfl
      · rfl

/-- Deleting an index head that has a tail: the head takes over the second
record, which goes in its place. -/
theorem indexDeleted_second (help : tbl.indexTable.dmaHelp = indexTableDmaHelp)
    (shaped : tbl.indexTable.Shaped indexEntryInterface chain)
    (busy : tbl.indexTable.Busy indexEntryInterface j) {k n : Nat}
    (hk : tbl.indexTable.nextIndex indexEntryInterface j = k)
    (hn : tbl.indexTable.nextIndex indexEntryInterface k = n)
    (hasNext : k ≠ 0) {target : Ip4TableCache}
    (sameIndex : target.indexTable = tbl.indexTable)
    {index' : IpaTable IndxTblRule}
    (result : index' = resetIndexMeta
      ((target.applyDma (tbl.indexTable.addDmaCmd .updateEntry j n
        (tbl.indexTable.createDeleteCommand indexEntryInterface []
          ⟨0, j, k⟩))).indexTable.deleteEntry indexEntryInterface ⟨j, k, n⟩
            false) k) :
    ∃ chain', IndexDeleted tbl.indexTable index' chain chain' j k := by
  obtain ⟨kBusy, kPrev⟩ := shaped.busy_next busy (hk ▸ hasNext)
  rw [hk] at kBusy kPrev
  have jNonzero := shaped.busy_ne_zero busy
  have distinct : j ≠ k := by
    have different := shaped.next_ne_self busy
    rw [hk] at different
    exact different.symm
  have posted : tbl.indexTable.createDeleteCommand indexEntryInterface []
      ⟨0, j, k⟩ = tbl.indexTable.addDmaCmd .deleteHead j
        (tbl.indexTable.entries k).tblEntry [] := by
    simp only [IpaTable.createDeleteCommand, if_true, ne_eq, hasNext,
      not_false_eq_true]
    rfl
  have geometry : tbl.indexTable.geometry = target.indexTable.geometry := by
    rw [sameIndex]
  rw [posted, applyDma_indexCmd geometry help busy.1,
    applyDma_indexCmd geometry help busy.1, applyDma_nil, dmaIndex_indexTable,
    dmaIndex_indexTable, sameIndex] at result
  have entries : ∀ i, ((tbl.indexTable.setEntry j
      ((tbl.indexTable.entries j).dmaWrite
        (indexTableDmaHelp .deleteHead).field
        (tbl.indexTable.entries k).tblEntry)).setEntry j
      (((tbl.indexTable.setEntry j ((tbl.indexTable.entries j).dmaWrite
        (indexTableDmaHelp .deleteHead).field
        (tbl.indexTable.entries k).tblEntry)).entries j).dmaWrite
          (indexTableDmaHelp .updateEntry).field n)).entries i =
      if i = j then { tblEntry := (tbl.indexTable.entries k).tblEntry,
                      nextIndex := n }
      else tbl.indexTable.entries i := by
    intro i
    simp only [IpaTable.setEntry_entries, if_true]
    split
    · rfl
    · rfl
  apply index_unlinked shaped kBusy kPrev hn (Or.inl jNonzero)
    ((tbl.indexTable.setEntry_same _ _).trans (IpaTable.setEntry_same _ _ _))
    _ _ _ rfl rfl rfl result
  · intro i _
    simp only [IpaTable.isFilled, entries]
    split
    · next atJ =>
      rw [atJ]
      exact kBusy.2.trans busy.2.symm
    · rfl
  · intro i _
    simp only [IpaTable.nextIndex, entries]
    by_cases atJ : i = j
    · rw [if_pos atJ, if_pos ⟨jNonzero, atJ⟩]
      rfl
    · rw [if_neg atJ, if_neg fun h => atJ h.2]
  · intro i _
    rw [entries]
    split
    · rfl
    · rfl

end Posted

end Ip4TableCache

end VendorModules.IpaNat
