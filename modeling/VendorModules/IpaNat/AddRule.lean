import VendorModules.IpaNat.Driver
import VendorModules.IpaNat.TableOps

namespace VendorModules.IpaNat

namespace Ip4TableCache

/-! ### Posted commands -/

@[simp] theorem dmaRule_table (tbl : Ip4TableCache) (i : Nat) (field : DmaField)
    (data : Nat) :
    (tbl.dmaRule i field data).table =
      tbl.table.setEntry i ((tbl.table.entries i).dmaWrite field data) := rfl

@[simp] theorem dmaIndex_indexTable (tbl : Ip4TableCache) (i : Nat)
    (field : DmaField) (data : Nat) :
    (tbl.dmaIndex i field data).indexTable =
      tbl.indexTable.setEntry i
        ((tbl.indexTable.entries i).dmaWrite field data) := rfl

@[simp] theorem applyDma_nil (tbl : Ip4TableCache) : tbl.applyDma [] = tbl := rfl

theorem applyDma_singleton (tbl : Ip4TableCache) (dma : DmaOne) :
    tbl.applyDma [dma] = tbl.applyDmaOne dma := rfl

theorem applyDma_append (tbl : Ip4TableCache) (first second : DmaCmd) :
    tbl.applyDma (first ++ second) = (tbl.applyDma first).applyDma second :=
  List.foldl_append

private theorem applyDmaOne_same (tbl : Ip4TableCache) (dma : DmaOne) :
    IpaTable.SameTable tbl.table (tbl.applyDmaOne dma).table ∧
      IpaTable.SameTable tbl.indexTable (tbl.applyDmaOne dma).indexTable := by
  unfold applyDmaOne
  cases dma.baseAddr <;> exact ⟨⟨rfl, rfl, rfl, rfl⟩, ⟨rfl, rfl, rfl, rfl⟩⟩

theorem applyDma_same (tbl : Ip4TableCache) (cmd : DmaCmd) :
    IpaTable.SameTable tbl.table (tbl.applyDma cmd).table ∧
      IpaTable.SameTable tbl.indexTable (tbl.applyDma cmd).indexTable := by
  induction cmd generalizing tbl with
  | nil => exact ⟨IpaTable.SameTable.refl _, IpaTable.SameTable.refl _⟩
  | cons dma cmd induction =>
    obtain ⟨rules, indexes⟩ := applyDmaOne_same tbl dma
    obtain ⟨restRules, restIndexes⟩ := induction (tbl.applyDmaOne dma)
    exact ⟨rules.trans restRules, indexes.trans restIndexes⟩

theorem applyDma_ruleCmd {tbl : Ip4TableCache} {table : IpaTable NatRule}
    (geometry : table.geometry = tbl.table.geometry)
    (help : table.dmaHelp = tableDmaHelp) {i : Nat}
    (inside : i < table.totTblEnts) (helpType : DmaHelpType) (data : Nat)
    (cmd : DmaCmd) :
    tbl.applyDma (table.addDmaCmd helpType i data cmd) =
      (tbl.applyDma cmd).dmaRule i (tableDmaHelp helpType).field data := by
  have base : (tbl.applyDma cmd).table.tableEntries = table.tableEntries :=
    (tbl.applyDma_same cmd).1.tableEntries.trans
      (congrArg TableGeometry.tableEntries geometry.symm)
  rw [IpaTable.addDmaCmd, if_neg (Nat.not_le.mpr inside)]
  by_cases expn : i ≥ table.tableEntries
  · rw [if_pos expn, help, IpaTable.dmaCmdGenerate, applyDma_append]
    have slot : table.tableEntries + (i - table.tableEntries) = i := by omega
    cases helpType <;>
      simp only [applyDma_singleton, applyDmaOne, tableDmaHelp, if_true, base, slot]
  · rw [if_neg expn, help, IpaTable.dmaCmdGenerate, applyDma_append]
    cases helpType <;> rfl

theorem applyDma_indexCmd {tbl : Ip4TableCache} {table : IpaTable IndxTblRule}
    (geometry : table.geometry = tbl.indexTable.geometry)
    (help : table.dmaHelp = indexTableDmaHelp) {i : Nat}
    (inside : i < table.totTblEnts) (helpType : DmaHelpType) (data : Nat)
    (cmd : DmaCmd) :
    tbl.applyDma (table.addDmaCmd helpType i data cmd) =
      (tbl.applyDma cmd).dmaIndex i (indexTableDmaHelp helpType).field data := by
  have base : (tbl.applyDma cmd).indexTable.tableEntries = table.tableEntries :=
    (tbl.applyDma_same cmd).2.tableEntries.trans
      (congrArg TableGeometry.tableEntries geometry.symm)
  rw [IpaTable.addDmaCmd, if_neg (Nat.not_le.mpr inside)]
  by_cases expn : i ≥ table.tableEntries
  · rw [if_pos expn, help, IpaTable.dmaCmdGenerate, applyDma_append]
    have slot : table.tableEntries + (i - table.tableEntries) = i := by omega
    cases helpType <;>
      simp only [applyDma_singleton, applyDmaOne, indexTableDmaHelp, if_true, base, slot]
  · rw [if_neg expn, help, IpaTable.dmaCmdGenerate, applyDma_append]
    cases helpType <;> rfl

theorem applyDma_indexCmd_table (tbl : Ip4TableCache)
    {table : IpaTable IndxTblRule} (help : table.dmaHelp = indexTableDmaHelp)
    (i : Nat) (helpType : DmaHelpType) (data : Nat) (cmd : DmaCmd) :
    (tbl.applyDma (table.addDmaCmd helpType i data cmd)).table =
      (tbl.applyDma cmd).table := by
  rw [IpaTable.addDmaCmd, help]
  split
  · rfl
  · split <;> rw [IpaTable.dmaCmdGenerate, applyDma_append] <;>
      cases helpType <;> rfl

theorem applyDma_ruleCmd_indexTable (tbl : Ip4TableCache)
    {table : IpaTable NatRule} (help : table.dmaHelp = tableDmaHelp)
    (i : Nat) (helpType : DmaHelpType) (data : Nat) (cmd : DmaCmd) :
    (tbl.applyDma (table.addDmaCmd helpType i data cmd)).indexTable =
      (tbl.applyDma cmd).indexTable := by
  rw [IpaTable.addDmaCmd, help]
  split
  · rfl
  · split <;> rw [IpaTable.dmaCmdGenerate, applyDma_append] <;>
      cases helpType <;> rfl

end Ip4TableCache

end VendorModules.IpaNat

namespace VendorModules.IpaNat

open VendorModules.Lib

structure Ip4TableCache.Wired (tbl : Ip4TableCache) : Prop where
  ruleHelp : tbl.table.dmaHelp = Ip4TableCache.tableDmaHelp
  ruleMeta : tbl.table.hasMeta = false
  indexHelp : tbl.indexTable.dmaHelp = Ip4TableCache.indexTableDmaHelp
  indexMeta : tbl.indexTable.hasMeta = true
  geometry : tbl.indexTable.geometry = tbl.table.geometry

namespace Ip4TableCache.Wired

theorem congr {tbl tbl' : Ip4TableCache} (wired : tbl.Wired)
    (rules : IpaTable.SameTable tbl.table tbl'.table)
    (indexes : IpaTable.SameTable tbl.indexTable tbl'.indexTable) :
    tbl'.Wired where
  ruleHelp := rules.dmaHelp.trans wired.ruleHelp
  ruleMeta := rules.hasMeta.trans wired.ruleMeta
  indexHelp := indexes.dmaHelp.trans wired.indexHelp
  indexMeta := indexes.hasMeta.trans wired.indexMeta
  geometry := by rw [indexes.geometry, wired.geometry, rules.geometry]

theorem tableEntries {tbl : Ip4TableCache} (wired : tbl.Wired) :
    tbl.indexTable.tableEntries = tbl.table.tableEntries :=
  congrArg TableGeometry.tableEntries wired.geometry

theorem create (nmi : MemIn) (geometry : TableGeometry) :
    (Ip4TableCache.create nmi geometry).Wired := ⟨rfl, rfl, rfl, rfl, rfl⟩

end Ip4TableCache.Wired

namespace Ip4TableCache

/-! ### Buckets -/

section Bucket

variable (tbl : Ip4TableCache)

private theorem size_pos : 0 < tbl.table.tableEntries - 1 :=
  Nat.sub_pos_of_lt tbl.table.two_le_tableEntries

theorem entryBucket_pos (drv : NatDrv) (clntRule : NatIpv4Rule) :
    0 < tbl.entryBucket drv clntRule := by
  simp only [entryBucket]
  split
  · exact foldHash_pos _ tbl.size_pos
  · exact foldHash_pos _ tbl.size_pos

theorem entryBucket_lt (drv : NatDrv) (clntRule : NatIpv4Rule) :
    tbl.entryBucket drv clntRule < tbl.table.tableEntries := by
  have below : tbl.entryBucket drv clntRule ≤ tbl.table.tableEntries - 1 := by
    simp only [entryBucket]
    split
    · exact foldHash_le _ _
    · exact foldHash_le _ _
  have positive := tbl.size_pos
  omega

theorem indexBucket_pos (hashToken : Nat) (clntRule : NatIpv4Rule) :
    0 < tbl.indexBucket hashToken clntRule := by
  simp only [indexBucket]
  split
  · exact foldHash_pos _ tbl.size_pos
  · exact foldHash_pos _ tbl.size_pos

theorem indexBucket_lt (hashToken : Nat) (clntRule : NatIpv4Rule) :
    tbl.indexBucket hashToken clntRule < tbl.table.tableEntries := by
  have below : tbl.indexBucket hashToken clntRule ≤
      tbl.table.tableEntries - 1 := by
    simp only [indexBucket]
    split
    · exact foldHash_le _ _
    · exact foldHash_le _ _
  have positive := tbl.size_pos
  omega

end Bucket

end Ip4TableCache

/-! ### The rule table -/

def insertedRule (pdns : Pdns) (old : NatRule) (clntRule : NatIpv4Rule)
    (prevIndex indxTblEntry : Nat) : NatRule :=
  { tableEntryCopyFromUser pdns old clntRule with
    prevIndex := prevIndex
    indxTblEntry := indxTblEntry
    redirect := false
    enable := true
    timeStamp := clntRule.timeStamp.setWidth 24 }

/-- A rule put into slot `e` behind slot `last`. -/
structure RuleAdded (pdns : Pdns) (clntRule : NatIpv4Rule)
    (table table' : IpaTable NatRule) (e last indx : Nat) : Prop where
  same : IpaTable.SameTable table table'
  entries : ∀ i, table'.entries i =
    if i = e then insertedRule pdns (table.entries e) clntRule last indx
    else if last ≠ 0 ∧ i = last then { table.entries i with nextIndex := e }
    else table.entries i
  tblCnt : table'.curTblCnt =
    table.curTblCnt + if e < table.tableEntries then 1 else 0
  expnCnt : table'.curExpnTblCnt =
    table.curExpnTblCnt + if e < table.tableEntries then 0 else 1

theorem RuleAdded.appended {pdns : Pdns} {clntRule : NatIpv4Rule}
    {table table' : IpaTable NatRule} {chain : Nat → List Nat} {e last indx : Nat}
    (added : RuleAdded pdns clntRule table table' e last indx)
    (shaped : table.Shaped (entryInterface pdns) chain)
    (inside : e < table.totTblEnts)
    (free : table.isFilled (entryInterface pdns) e = false) :
    table.Appended (entryInterface pdns) table' e last where
  same := added.same
  filled := by
    intro i
    simp only [IpaTable.isFilled, entryInterface, added.entries]
    split
    · rfl
    · split <;> rfl
  next := by
    intro i
    have vacant : (table.entries e).nextIndex = 0 :=
      (shaped.vacant e inside free).1
    simp only [IpaTable.nextIndex, entryInterface, added.entries]
    split
    · exact vacant
    · split <;> rfl
  prev := by
    intro i
    simp only [IpaTable.prevIndex, entryInterface, added.entries]
    split
    · rfl
    · split <;> rfl
  tblCnt := added.tblCnt
  expnCnt := added.expnCnt

private theorem completeRule_dmaWrite (pdns : Pdns) (old : NatRule)
    (clntRule : NatIpv4Rule) (prevIndex indx : Nat) :
    (Ip4TableCache.completeRule
        { tableEntryCopyFromUser pdns old clntRule with prevIndex := prevIndex }
        clntRule indx).dmaWrite .tableFlags
      (natFlags (clntRule.ucActivationIndex.setWidth 13) clntRule.s false true) =
    insertedRule pdns old clntRule prevIndex indx := by
  simp only [Ip4TableCache.completeRule, NatRule.dmaWrite, insertedRule,
    natFlags_ucActivationIndex, natFlags_s, natFlags_redirect, natFlags_enable,
    tableEntryCopyFromUser]

/-! ### The index table -/

/-- An index record for rule slot `e` put into slot `j` behind slot `last`. -/
structure IndexAdded (index index' : IpaTable IndxTblRule) (e j last : Nat) :
    Prop where
  same : IpaTable.SameTable index index'
  entries : ∀ i, index'.entries i =
    if i = j then { index.entries j with tblEntry := e }
    else if last ≠ 0 ∧ i = last then { index.entries i with nextIndex := j }
    else index.entries i
  prev : ∀ i, index'.prevIndex indexEntryInterface i =
    if i = j then last else index.prevIndex indexEntryInterface i
  tblCnt : index'.curTblCnt =
    index.curTblCnt + if j < index.tableEntries then 1 else 0
  expnCnt : index'.curExpnTblCnt =
    index.curExpnTblCnt + if j < index.tableEntries then 0 else 1

theorem IndexAdded.appended {index index' : IpaTable IndxTblRule}
    {chain : Nat → List Nat} {e j last : Nat}
    (added : IndexAdded index index' e j last)
    (shaped : index.Shaped indexEntryInterface chain)
    (inside : j < index.totTblEnts)
    (free : index.isFilled indexEntryInterface j = false) (nonzero : e ≠ 0) :
    index.Appended indexEntryInterface index' j last where
  same := added.same
  filled := by
    intro i
    simp only [IpaTable.isFilled, indexEntryInterface, added.entries]
    split
    · simp [nonzero]
    · split <;> rfl
  next := by
    intro i
    have vacant : (index.entries j).nextIndex = 0 :=
      (shaped.vacant j inside free).1
    simp only [IpaTable.nextIndex, indexEntryInterface, added.entries]
    split
    · exact vacant
    · split <;> rfl
  prev := added.prev
  tblCnt := added.tblCnt
  expnCnt := added.expnCnt

namespace Ip4TableCache

variable {tbl tbl' : Ip4TableCache} {drv : NatDrv} {clntRule : NatIpv4Rule}
  {dma : Bool} {token : Nat} {ret : Except Errno Nat} {chain : Nat → List Nat}

private theorem applyDma_indexAdd (target : Ip4TableCache)
    {index index' : IpaTable IndxTblRule} {e b j : Nat} {cmd cmd' : DmaCmd}
    (help : index.dmaHelp = indexTableDmaHelp) (hasMeta : index.hasMeta = true)
    (added : index.addEntry indexEntryInterface e b cmd = .ok (index', j, cmd')) :
    (target.applyDma cmd').table = (target.applyDma cmd).table := by
  rcases IpaTable.addEntry_cases added with
    ⟨-, -, -, rfl⟩ | ⟨-, last, -, -, -, rfl⟩
  · exact target.applyDma_indexCmd_table help _ _ _ _
  · rw [hasMeta, if_pos rfl]
    exact target.applyDma_indexCmd_table help _ _ _ _

private theorem ruleAdded_posted (wired : tbl.Wired)
    (shaped : tbl.table.Shaped (entryInterface drv.pdns) chain) {b e : Nat}
    (bucketLt : b < tbl.table.tableEntries) {table : IpaTable NatRule}
    {cmd : DmaCmd}
    (added : tbl.table.addEntry (entryInterface drv.pdns) clntRule b [] =
      .ok (table, e, cmd))
    (index : IpaTable IndxTblRule) (indx : Nat) :
    RuleAdded drv.pdns clntRule tbl.table
      (applyDma
        { table := table.setEntry e
            (completeRule (table.entries e) clntRule indx)
          indexTable := index }
        cmd).table e ((chain b).getLastD 0) indx := by
  have lawful := entryInterface_lawful drv.pdns
  obtain ⟨placed, eInside, free, -, -⟩ :=
    IpaTable.addEntry_placed lawful bucketLt added
  have same := placed.same
  have completed := placed.set (completeRule (table.entries e) clntRule indx)
  generalize htarget : Ip4TableCache.mk (table.setEntry e
    (completeRule (table.entries e) clntRule indx)) index = target
  have targetTable : target.table = table.setEntry e
      (completeRule (table.entries e) clntRule indx) := by rw [← htarget]
  rw [← targetTable] at completed
  have geometry : tbl.table.geometry = target.table.geometry :=
    completed.same.geometry.symm
  rcases IpaTable.addEntry_cases added with
    ⟨vacant, rfl, rfl, rfl⟩ | ⟨filled, last, walked, found, rfl, rfl⟩
  · have empty : chain e = [] := by
      by_contra nonempty
      rw [(shaped.filled_base_iff bucketLt).mpr nonempty] at vacant
      cases vacant
    have unlinked : (tbl.table.entries e).prevIndex = 0 :=
      (shaped.vacant e eInside vacant).2 bucketLt
    have record : target.table.entries e = completeRule
        { tableEntryCopyFromUser drv.pdns (tbl.table.entries e) clntRule with
          prevIndex := 0 } clntRule indx := by
      rw [completed.entries, if_pos rfl]
      refine congrArg (completeRule · clntRule indx) ?_
      refine (IpaTable.setEntry_entries _ _ _ _).trans ((if_pos rfl).trans ?_)
      rw [← unlinked]
      rfl
    rw [applyDma_ruleCmd geometry wired.ruleHelp eInside, applyDma_nil, empty]
    refine ⟨completed.same.trans ⟨rfl, rfl, rfl, rfl⟩, fun i => ?_,
      completed.tblCnt, completed.expnCnt⟩
    rw [dmaRule_table, IpaTable.setEntry_entries, record]
    by_cases atE : i = e
    · rw [if_pos atE, if_pos atE]
      exact completeRule_dmaWrite drv.pdns (tbl.table.entries e) clntRule 0 indx
    · rw [if_neg atE, if_neg atE, completed.entries, if_neg atE, if_neg]
      simp
  · have nonempty : chain b ≠ [] := (shaped.filled_base_iff bucketLt).mp filled
    have lastEq : last = (chain b).getLastD 0 := by
      rw [shaped.iteratorEnd_eq nonempty, Except.ok.injEq] at walked
      exact walked.symm
    have lastBusy : tbl.table.Busy (entryInterface drv.pdns) last :=
      lastEq ▸ shaped.busy_last nonempty
    have lastNonzero : last ≠ 0 := shaped.busy_ne_zero lastBusy
    have distinct : last ≠ e := by
      rintro rfl
      rw [lastBusy.2] at free
      cases free
    have record : target.table.entries e = completeRule
        { tableEntryCopyFromUser drv.pdns (tbl.table.entries e) clntRule with
          prevIndex := last } clntRule indx := by
      rw [completed.entries, if_pos rfl]
      refine congrArg (completeRule · clntRule indx) ?_
      simp [IpaTable.setPrevIndex, IpaTable.setEntry, IpaTable.newEntry,
        wired.ruleMeta, entryInterface, tableEntryHeadInsert]
    rw [wired.ruleMeta, if_neg Bool.false_ne_true,
      applyDma_ruleCmd geometry wired.ruleHelp lastBusy.1,
      applyDma_ruleCmd geometry wired.ruleHelp eInside, applyDma_nil, ← lastEq]
    refine ⟨completed.same.trans ⟨rfl, rfl, rfl, rfl⟩, fun i => ?_,
      completed.tblCnt, completed.expnCnt⟩
    rw [dmaRule_table, IpaTable.setEntry_entries, dmaRule_table,
      IpaTable.setEntry_entries, IpaTable.setEntry_entries, if_neg distinct,
      completed.entries last, if_neg distinct]
    by_cases atE : i = e
    · subst atE
      rw [if_neg distinct.symm, if_pos rfl, if_pos rfl, record]
      exact completeRule_dmaWrite drv.pdns (tbl.table.entries i) clntRule last indx
    · by_cases atLast : i = last
      · rw [if_pos atLast, if_neg atE, if_pos ⟨lastNonzero, atLast⟩, atLast]
        rfl
      · rw [if_neg atLast, if_neg atE, if_neg atE, if_neg fun h => atLast h.2,
          completed.entries, if_neg atE]

private theorem indexAdded_posted (wired : tbl.Wired)
    {index index' : IpaTable IndxTblRule} {e b j : Nat} {cmd cmd' : DmaCmd}
    (same : tbl.indexTable = index)
    (shaped : index.Shaped indexEntryInterface chain)
    (bucketLt : b < index.tableEntries)
    (added : index.addEntry indexEntryInterface e b cmd = .ok (index', j, cmd'))
    (table : IpaTable NatRule)
    (untouched : ∀ target : Ip4TableCache,
      (target.applyDma cmd).indexTable = target.indexTable) :
    IndexAdded index (applyDma { table, indexTable := index' } cmd').indexTable
      e j ((chain b).getLastD 0) := by
  subst same
  have lawful := indexEntryInterface_lawful
  obtain ⟨placed, jInside, free, -, -⟩ :=
    IpaTable.addEntry_placed lawful bucketLt added
  generalize htarget : Ip4TableCache.mk table index' = target
  have targetIndex : target.indexTable = index' := by rw [← htarget]
  have before : (target.applyDma cmd).indexTable = index' := by
    rw [untouched, targetIndex]
  have geometry : tbl.indexTable.geometry = target.indexTable.geometry := by
    rw [targetIndex, placed.same.geometry]
  rcases IpaTable.addEntry_cases added with
    ⟨vacant, rfl, hindex, rfl⟩ | ⟨filled, last, walked, found, hindex, rfl⟩
  · have empty : chain j = [] := by
      by_contra nonempty
      rw [(shaped.filled_base_iff bucketLt).mpr nonempty] at vacant
      cases vacant
    have record : index'.entries j = tbl.indexTable.entries j := by
      rw [hindex]
      exact (IpaTable.setEntry_entries _ _ _ _).trans (if_pos rfl)
    rw [applyDma_indexCmd geometry wired.indexHelp jInside, dmaIndex_indexTable,
      before, empty]
    refine ⟨placed.same.trans ⟨rfl, rfl, rfl, rfl⟩, fun i => ?_, fun i => ?_,
      placed.tblCnt, placed.expnCnt⟩
    · rw [IpaTable.setEntry_entries, record]
      by_cases atJ : i = j
      · rw [if_pos atJ, if_pos atJ]
        rfl
      · rw [if_neg atJ, if_neg atJ, placed.entries, if_neg atJ, if_neg]
        simp
    · rw [IpaTable.prevIndex_setEntry]
      by_cases atJ : i = j
      · rw [if_pos atJ, if_pos atJ]
        simp [indexEntryInterface, placed.same.tableEntries, bucketLt]
      · rw [if_neg atJ, if_neg atJ, placed.prev i atJ]
  · have nonempty : chain b ≠ [] := (shaped.filled_base_iff bucketLt).mp filled
    have lastEq : last = (chain b).getLastD 0 := by
      rw [shaped.iteratorEnd_eq nonempty, Except.ok.injEq] at walked
      exact walked.symm
    have lastBusy : tbl.indexTable.Busy indexEntryInterface last :=
      lastEq ▸ shaped.busy_last nonempty
    have lastNonzero : last ≠ 0 := shaped.busy_ne_zero lastBusy
    have distinct : last ≠ j := by
      rintro rfl
      rw [lastBusy.2] at free
      cases free
    have lower := (IpaTable.findExpnTblFreeEntry_ok found).1
    have record : index'.entries j =
        { tbl.indexTable.entries j with tblEntry := e } := by
      simp [hindex, IpaTable.setPrevIndex, IpaTable.setEntry, IpaTable.newEntry,
        wired.indexMeta, indexEntryInterface]
    have prevJ : index'.prevIndex indexEntryInterface j = last := by
      rw [hindex]
      refine (IpaTable.prevIndex_setPrevIndex lawful
        (tbl.indexTable.setEntry j (tbl.indexTable.newEntry indexEntryInterface
          e j)) lower j last).trans (if_pos rfl)
    rw [wired.indexMeta, if_pos rfl,
      applyDma_indexCmd geometry wired.indexHelp lastBusy.1,
      dmaIndex_indexTable, before, ← lastEq]
    refine ⟨placed.same.trans ⟨rfl, rfl, rfl, rfl⟩, fun i => ?_, fun i => ?_,
      placed.tblCnt, placed.expnCnt⟩
    · rw [IpaTable.setEntry_entries, placed.entries last, if_neg distinct]
      by_cases atJ : i = j
      · subst atJ
        rw [if_neg distinct.symm, if_pos rfl, record]
      · by_cases atLast : i = last
        · rw [if_pos atLast, if_neg atJ, if_pos ⟨lastNonzero, atLast⟩, atLast]
          rfl
        · rw [if_neg atLast, if_neg atJ, if_neg fun h => atLast h.2,
            placed.entries, if_neg atJ]
    · rw [IpaTable.prevIndex_setEntry]
      by_cases atLast : i = last
      · subst atLast
        rw [if_pos rfl, if_neg distinct, ← placed.prev i distinct]
        rfl
      · rw [if_neg atLast]
        by_cases atJ : i = j
        · rw [if_pos atJ, atJ, prevJ]
        · rw [if_neg atJ, placed.prev i atJ]

private theorem ruleAdd_indexTable {table : IpaTable NatRule} {b e : Nat}
    {cmd : DmaCmd} (wired : tbl.Wired)
    (added : tbl.table.addEntry (entryInterface drv.pdns) clntRule b [] =
      .ok (table, e, cmd)) (target : Ip4TableCache) :
    (target.applyDma cmd).indexTable = target.indexTable := by
  rcases IpaTable.addEntry_cases added with
    ⟨-, -, -, rfl⟩ | ⟨-, last, -, -, -, rfl⟩
  · rw [applyDma_ruleCmd_indexTable _ wired.ruleHelp, applyDma_nil]
  · rw [wired.ruleMeta, if_neg Bool.false_ne_true,
      applyDma_ruleCmd_indexTable _ wired.ruleHelp,
      applyDma_ruleCmd_indexTable _ wired.ruleHelp, applyDma_nil]

theorem addRule_spec (wired : tbl.Wired)
    (shaped : tbl.table.Shaped (entryInterface drv.pdns) chain)
    (result : tbl.addRule drv clntRule dma = (tbl', token, ret)) :
    ((∃ errno, ret = .error errno) ∧
      tbl.table.Kept (entryInterface drv.pdns) tbl'.table ∧
      ∀ indexChain, tbl.indexTable.Shaped indexEntryInterface indexChain →
        tbl.indexTable.Kept indexEntryInterface tbl'.indexTable) ∨
    (dma = true ∧ ∃ e indx,
      ret = .ok (tbl.table.makeEntryHdl e) ∧
      tbl.table.Claimable (entryInterface drv.pdns) chain
        (tbl.entryBucket drv clntRule) e ∧
      RuleAdded drv.pdns clntRule tbl.table tbl'.table e
        ((chain (tbl.entryBucket drv clntRule)).getLastD 0) indx ∧
      ∀ indexChain, tbl.indexTable.Shaped indexEntryInterface indexChain →
        ∃ b, b = tbl.indexBucket (drv.hashToken + clntRule.srcOnly.toNat)
            clntRule ∧
          tbl.indexTable.Claimable indexEntryInterface indexChain b indx ∧
          IndexAdded tbl.indexTable tbl'.indexTable e indx
            ((indexChain b).getLastD 0)) := by
  have lawful := entryInterface_lawful drv.pdns
  have bucketLt := tbl.entryBucket_lt drv clntRule
  have bucketPos := tbl.entryBucket_pos drv clntRule
  have indexBucketLt := tbl.indexBucket_lt
    (drv.hashToken + clntRule.srcOnly.toNat) clntRule
  have indexBucketPos := tbl.indexBucket_pos
    (drv.hashToken + clntRule.srcOnly.toNat) clntRule
  rw [← wired.tableEntries] at indexBucketLt
  generalize hb : tbl.entryBucket drv clntRule = b at bucketLt bucketPos ⊢
  generalize hc : tbl.indexBucket (drv.hashToken + clntRule.srcOnly.toNat)
    clntRule = c at indexBucketLt indexBucketPos ⊢
  simp only [addRule, hb, hc] at result
  cases ruleAdd : tbl.table.addEntry (entryInterface drv.pdns) clntRule b [] with
  | error errno =>
    simp only [ruleAdd, Prod.mk.injEq] at result
    obtain ⟨rfl, -, rfl⟩ := result
    exact Or.inl ⟨⟨errno, rfl⟩, IpaTable.Kept.refl _ _,
      fun _ _ => IpaTable.Kept.refl _ _⟩
  | ok added =>
    obtain ⟨table, e, cmd⟩ := added
    have placed := (IpaTable.addEntry_placed lawful bucketLt ruleAdd).1
    have claimable :=
      IpaTable.addEntry_claimable lawful shaped bucketPos bucketLt ruleAdd
    have found : table.getEntryByIndex e = some (table.entries e) :=
      table.getEntryByIndex_eq_some claimable.nonzero
        (placed.same.totTblEnts.symm ▸ claimable.inside)
    simp only [ruleAdd, found] at result
    cases indexAdd : tbl.indexTable.addEntry indexEntryInterface e c cmd with
    | error errno =>
      simp only [indexAdd, Prod.mk.injEq] at result
      obtain ⟨rfl, -, rfl⟩ := result
      exact Or.inl ⟨⟨errno, rfl⟩,
        placed.erase lawful shaped claimable.inside claimable.free,
        fun _ _ => IpaTable.Kept.refl _ _⟩
    | ok indexAdded =>
      obtain ⟨indexTable, indx, cmd'⟩ := indexAdded
      simp only [indexAdd] at result
      cases dma with
      | false =>
        simp only [Bool.false_eq_true, if_false, Prod.mk.injEq] at result
        obtain ⟨rfl, -, rfl⟩ := result
        refine Or.inl ⟨⟨.eio, rfl⟩, (placed.set _).erase lawful shaped
          claimable.inside claimable.free, fun indexChain indexShaped => ?_⟩
        obtain ⟨indexPlaced, inside, free, -⟩ := IpaTable.addEntry_placed
          indexEntryInterface_lawful indexBucketLt indexAdd
        exact indexPlaced.erase indexEntryInterface_lawful indexShaped
          inside free
      | true =>
        simp only [if_true, Prod.mk.injEq] at result
        obtain ⟨rfl, -, rfl⟩ := result
        refine Or.inr ⟨rfl, e, indx, ?_, claimable, ?_,
          fun indexChain indexShaped => ⟨c, rfl, ?_, ?_⟩⟩
        · rw [placed.same.makeEntryHdl]
        · have posted := ruleAdded_posted wired shaped bucketLt ruleAdd
            indexTable indx
          rw [← applyDma_indexAdd _ wired.indexHelp wired.indexMeta
            indexAdd] at posted
          exact posted
        · exact IpaTable.addEntry_claimable indexEntryInterface_lawful
            indexShaped indexBucketPos indexBucketLt indexAdd
        · exact indexAdded_posted wired rfl indexShaped indexBucketLt
            indexAdd _ (ruleAdd_indexTable wired ruleAdd)

end Ip4TableCache

end VendorModules.IpaNat
