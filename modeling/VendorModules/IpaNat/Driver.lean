import VendorModules.IpaNat.Rule

namespace VendorModules.IpaNat

/-! The table operations of `ipa_nat_drvi.c`. Calls that leave the library (the
mutex and the ioctls) are inputs that say whether the call succeeds. -/

/-- `struct ipa_nat_ip4_table_cache`. -/
structure Ip4TableCache where
  table : IpaTable NatRule
  indexTable : IpaTable IndxTblRule

/-- The static data of the driver interface. A cache holds at most one table;
`none` is a cache without an initialized table. -/
structure NatDrv where
  cache : MemIn → Option Ip4TableCache
  pdns : Pdns
  hashToken : Nat
  verAtLeast40 : Bool
  activeNatCache : Option MemIn

structure DrvCalls where
  lock : Bool
  dma : Bool
  unlock : Bool
  deriving DecidableEq, Repr

def maxPdnNum : Nat := 16

/-! ### Table handles -/

def makeTblHdl (hdl : Nat) (nmi : MemIn) : Nat := nmi.code * 2147483648 + hdl

/-- The memory type `BREAK_TBL_HDL` extracts. -/
def tblHdlMem (tblHdl : Nat) : MemIn :=
  if tblHdl / 2147483648 % 2 = 1 then .sram else .ddr

def validTblHdl (tblHdl : Nat) : Bool := decide (tblHdl % 256 = 1)

namespace NatDrv

def natTable (drv : NatDrv) (tblHdl : Nat) : Option Ip4TableCache :=
  if validTblHdl tblHdl then drv.cache (tblHdlMem tblHdl) else none

def setCache (drv : NatDrv) (nmi : MemIn) (tbl : Option Ip4TableCache) : NatDrv :=
  { drv with cache := Function.update drv.cache nmi tbl }

end NatDrv

namespace Ip4TableCache

/-! ### Creation -/

/-- `ipa_nati_create_table_dma_cmd_helpers`, rule table. -/
def tableDmaHelp : DmaHelpType → DmaCmdHelper
  | .updateHead => ⟨.tableFlags, .natBaseTbl, .natExpnTbl⟩
  | .updateEntry => ⟨.tableNextIndex, .natBaseTbl, .natExpnTbl⟩
  | .deleteHead => ⟨.tableProtocol, .natBaseTbl, .natExpnTbl⟩

/-- `ipa_nati_create_table_dma_cmd_helpers`, index table. -/
def indexTableDmaHelp : DmaHelpType → DmaCmdHelper
  | .updateHead => ⟨.indexTableEntry, .natIndxTbl, .natIndexExpnTbl⟩
  | .updateEntry => ⟨.indexTableNextIndex, .natIndxTbl, .natIndexExpnTbl⟩
  | .deleteHead => ⟨.indexTableEntry, .natIndxTbl, .natIndexExpnTbl⟩

/-- `ipa_nati_create_table`, once the memory is there. -/
def create (nmi : MemIn) (geometry : TableGeometry) : Ip4TableCache where
  table :=
    { nmi := nmi
      geometry := geometry
      entries := fun _ => NatRule.blank
      curTblCnt := 0
      curExpnTblCnt := 0
      hasMeta := false
      metaPrev := fun _ => 0
      dmaHelp := tableDmaHelp }
  indexTable :=
    { nmi := nmi
      geometry := geometry
      entries := fun _ => IndxTblRule.blank
      curTblCnt := 0
      curExpnTblCnt := 0
      hasMeta := true
      metaPrev := fun _ => 0
      dmaHelp := indexTableDmaHelp }

/-! ### DMA -/

def dmaRule (tbl : Ip4TableCache) (index : Nat) (field : DmaField)
    (data : Nat) : Ip4TableCache :=
  { tbl with
    table := tbl.table.setEntry index
      ((tbl.table.entries index).dmaWrite field data) }

def dmaIndex (tbl : Ip4TableCache) (index : Nat) (field : DmaField)
    (data : Nat) : Ip4TableCache :=
  { tbl with
    indexTable := tbl.indexTable.setEntry index
      ((tbl.indexTable.entries index).dmaWrite field data) }

def applyDmaOne (tbl : Ip4TableCache) (dma : DmaOne) : Ip4TableCache :=
  match dma.baseAddr with
  | .natBaseTbl => tbl.dmaRule dma.record dma.field dma.data
  | .natExpnTbl =>
    tbl.dmaRule (tbl.table.tableEntries + dma.record) dma.field dma.data
  | .natIndxTbl => tbl.dmaIndex dma.record dma.field dma.data
  | .natIndexExpnTbl =>
    tbl.dmaIndex (tbl.indexTable.tableEntries + dma.record) dma.field dma.data

/-- The effect of a posted `IPA_IOC_TABLE_DMA_CMD`. -/
def applyDma (tbl : Ip4TableCache) (cmd : DmaCmd) : Ip4TableCache :=
  cmd.foldl applyDmaOne tbl

/-! ### Adding a rule -/

def spreadHash (hash token size : Nat) : Nat :=
  foldHash (BitVec.ofNat 16 (hash + token)) size

def eraseBoth (tbl : Ip4TableCache) (pdns : Pdns)
    (entryIndex indexEntryIndex : Nat) : Ip4TableCache where
  table := tbl.table.eraseEntry (entryInterface pdns) entryIndex
  indexTable := tbl.indexTable.eraseEntry indexEntryInterface indexEntryIndex

def entryBucket (drv : NatDrv) (tbl : Ip4TableCache)
    (clntRule : NatIpv4Rule) : Nat :=
  let size := tbl.table.tableEntries - 1
  let hash := dstHash drv.verAtLeast40 (drv.pdns clntRule.pdnIndex.toNat)
    clntRule.targetIp clntRule.targetPort clntRule.publicPort
    clntRule.protocol size
  if clntRule.srcOnly then spreadHash hash drv.hashToken size else hash

def indexBucket (tbl : Ip4TableCache) (hashToken : Nat)
    (clntRule : NatIpv4Rule) : Nat :=
  let size := tbl.table.tableEntries - 1
  let hash := srcHash clntRule.privateIp clntRule.privatePort
    clntRule.targetIp clntRule.targetPort clntRule.protocol size
  if clntRule.dstOnly then spreadHash hash hashToken size else hash

/-- The fields of the new record that `ipa_NATI_add_ipv4_rule` writes itself,
before it posts the commands. -/
def completeRule (rule : NatRule) (clntRule : NatIpv4Rule)
    (indxTblEntry : Nat) : NatRule :=
  { rule with
    indxTblEntry := indxTblEntry
    redirect := clntRule.redirect.getLsbD 0
    enable := clntRule.enable.getLsbD 0
    timeStamp := clntRule.timeStamp.setWidth 24 }

/-- The part of `ipa_NATI_add_ipv4_rule` between the table check and the
unlocking: the tables, the hash token and the new rule's handle. -/
def addRule (drv : NatDrv) (tbl : Ip4TableCache) (clntRule : NatIpv4Rule)
    (dma : Bool) : Ip4TableCache × Nat × Except Errno Nat :=
  let ei := entryInterface drv.pdns
  let hashToken := drv.hashToken + clntRule.srcOnly.toNat
  match tbl.table.addEntry ei clntRule (entryBucket drv tbl clntRule) [] with
  | .error errno => (tbl, hashToken, .error errno)
  | .ok (table, newEntryIndex, cmd) =>
    let newEntryHandle := table.makeEntryHdl newEntryIndex
    let bucket := tbl.indexBucket hashToken clntRule
    let hashToken := hashToken + clntRule.dstOnly.toNat
    match tbl.indexTable.addEntry indexEntryInterface newEntryIndex bucket
        cmd with
    | .error errno =>
      ({ tbl with table := table.eraseEntry ei newEntryIndex }, hashToken,
        .error errno)
    | .ok (indexTable, newIndexTblEntryIndex, cmd) =>
      match table.getEntryByIndex newEntryIndex with
      | none =>
        (eraseBoth { table, indexTable } drv.pdns newEntryIndex
          newIndexTblEntryIndex, hashToken, .error .eperm)
      | some rule =>
        let table := table.setEntry newEntryIndex
          (completeRule rule clntRule newIndexTblEntryIndex)
        if dma then
          (applyDma { table, indexTable } cmd, hashToken,
            .ok newEntryHandle)
        else
          (eraseBoth { table, indexTable } drv.pdns newEntryIndex
            newIndexTblEntryIndex, hashToken, .error .eio)

/-! ### Deleting a rule -/

/-- `ipa_nati_copy_second_index_entry_to_head`. The cross reference of the
second entry's rule is written by the CPU, before the commands are posted. -/
def copySecondIndexEntryToHead (tbl : Ip4TableCache) (iterator : TableIterator)
    (cmd : DmaCmd) : Ip4TableCache × DmaCmd :=
  let indexTableRule := tbl.indexTable.entries iterator.nextIndex
  let cmd := tbl.indexTable.addDmaCmd .updateEntry iterator.currIndex
    indexTableRule.nextIndex cmd
  let rule := tbl.table.entries indexTableRule.tblEntry
  ({ tbl with
      table := tbl.table.setEntry indexTableRule.tblEntry
        { rule with indxTblEntry := iterator.currIndex } },
    cmd)

def resetIndexMeta (indexTable : IpaTable IndxTblRule) (currIndex : Nat) :
    IpaTable IndxTblRule :=
  if currIndex ≥ indexTable.tableEntries then
    { indexTable with
      metaPrev := Function.update indexTable.metaPrev
        (currIndex - indexTable.tableEntries) 0 }
  else indexTable

/-- The end of `ipa_NATI_del_ipv4_rule`: post the commands, then free the
records the iterators point to. -/
def finishDelete (pdns : Pdns) (tbl : Ip4TableCache)
    (tableIterator indexTableIterator : TableIterator) (cmd : DmaCmd)
    (dma : Bool) : Ip4TableCache × Except Errno Unit :=
  let ei := entryInterface pdns
  let cmd := tbl.table.createDeleteCommand ei cmd tableIterator
  if !dma then (tbl, .error .eio)
  else
    let tbl := tbl.applyDma cmd
    let table :=
      if tableIterator.isHeadWithTail then tbl.table
      else
        let isPrevEmpty := decide (tableIterator.prevIndex ≠ 0 ∧
          (tbl.table.entries tableIterator.prevIndex).protocol =
            natInvalidProtocol)
        tbl.table.deleteEntry ei tableIterator isPrevEmpty
    let indexTable :=
      tbl.indexTable.deleteEntry indexEntryInterface indexTableIterator false
    let indexTable := resetIndexMeta indexTable indexTableIterator.currIndex
    ({ table, indexTable }, .ok ())

/-- The part of `ipa_NATI_del_ipv4_rule` under the mutex. -/
def delRule (pdns : Pdns) (tbl : Ip4TableCache) (ruleHdl : Nat) (dma : Bool) :
    Ip4TableCache × Except Errno Unit :=
  match tbl.table.getEntry ruleHdl with
  | .error errno => (tbl, .error errno)
  | .ok index =>
    match tbl.table.iteratorInit (entryInterface pdns) index with
    | .error errno => (tbl, .error errno)
    | .ok tableIterator =>
      let index := (tbl.table.entries index).indxTblEntry
      match tbl.indexTable.getEntryByIndex index with
      | none => (tbl, .error .eperm)
      | some _ =>
        match tbl.indexTable.iteratorInit indexEntryInterface index with
        | .error errno => (tbl, .error errno)
        | .ok iterator =>
          let cmd := tbl.indexTable.createDeleteCommand
            indexEntryInterface [] iterator
          if iterator.isHeadWithTail then
            let (tbl, cmd) := tbl.copySecondIndexEntryToHead iterator cmd
            match tbl.indexTable.iteratorNext indexEntryInterface
                iterator with
            | .error errno => (tbl, .error errno)
            | .ok iterator =>
              finishDelete pdns tbl tableIterator iterator cmd dma
          else finishDelete pdns tbl tableIterator iterator cmd dma

/-! ### Clearing -/

/-- The part of `ipa_NATI_clear_ipv4_tbl` under the mutex. -/
def clear (pdns : Pdns) (tbl : Ip4TableCache) : Ip4TableCache where
  table :=
    { tbl.table.reset (entryInterface pdns) with
      curTblCnt := 0
      curExpnTblCnt := 0 }
  indexTable :=
    { tbl.indexTable.reset indexEntryInterface with
      curTblCnt := 0
      curExpnTblCnt := 0 }

end Ip4TableCache

/-- `ret = (ret) ? ret : -EPERM` when the mutex cannot be unlocked. -/
def unlockResult {α : Type} (unlock : Bool) (ret : Except Errno α) :
    Except Errno α :=
  match ret with
  | .error errno => .error errno
  | .ok value => if unlock then .ok value else .error .eperm

/-- The arguments `ipa_NATI_add_ipv4_rule` refuses before it takes the mutex. -/
def validClntRule (pdns : Pdns) (clntRule : NatIpv4Rule) : Bool :=
  decide (clntRule.protocol ≠ natInvalidProtocol ∧
    clntRule.pdnIndex.toNat < maxPdnNum ∧ pdns clntRule.pdnIndex.toNat ≠ 0)

namespace NatDrv

/-- `ipa_NATI_add_ipv4_rule`, which returns the rule's handle. -/
def natiAddIpv4Rule (drv : NatDrv) (tblHdl : Nat) (clntRule : NatIpv4Rule)
    (calls : DrvCalls) : NatDrv × Except Errno Nat :=
  if !validTblHdl tblHdl then (drv, .error .einval)
  else if !validClntRule drv.pdns clntRule then (drv, .error .einval)
  else if !calls.lock then (drv, .error .einval)
  else
    match drv.natTable tblHdl with
    | none => (drv, .error .einval)
    | some tbl =>
      let (tbl, hashToken, ret) := tbl.addRule drv clntRule calls.dma
      ({ drv.setCache (tblHdlMem tblHdl) (some tbl) with
          hashToken := hashToken },
        unlockResult calls.unlock ret)

/-- `ipa_NATI_del_ipv4_rule`. -/
def natiDelIpv4Rule (drv : NatDrv) (tblHdl ruleHdl : Nat) (calls : DrvCalls) :
    NatDrv × Except Errno Unit :=
  if !calls.lock then (drv, .error .einval)
  else
    match drv.natTable tblHdl with
    | none => (drv, unlockResult calls.unlock (.error .einval))
    | some tbl =>
      let (tbl, ret) := tbl.delRule drv.pdns ruleHdl calls.dma
      (drv.setCache (tblHdlMem tblHdl) (some tbl),
        unlockResult calls.unlock ret)

/-- `ipa_NATI_clear_ipv4_tbl`. -/
def natiClearIpv4Tbl (drv : NatDrv) (tblHdl : Nat) (calls : DrvCalls) :
    NatDrv × Except Errno Unit :=
  if !calls.lock then (drv, .error .einval)
  else
    match drv.natTable tblHdl with
    | none => (drv, unlockResult calls.unlock (.error .einval))
    | some tbl =>
      (drv.setCache (tblHdlMem tblHdl) (some (tbl.clear drv.pdns)),
        unlockResult calls.unlock (.ok ()))

/-- `ipa_NATI_query_timestamp`. -/
def natiQueryTimestamp (drv : NatDrv) (tblHdl ruleHdl : Nat)
    (calls : DrvCalls) : Except Errno (BitVec 24) :=
  if !calls.lock then .error .einval
  else
    match drv.natTable tblHdl with
    | none => .error .einval
    | some tbl =>
      match tbl.table.getEntry ruleHdl with
      | .error errno => .error errno
      | .ok index =>
        unlockResult calls.unlock (.ok (tbl.table.entries index).timeStamp)

end NatDrv

end VendorModules.IpaNat

namespace VendorModules.IpaNat

/-! What one call of the library does to the driver's data, whatever becomes of
the unlocking at its end. -/

def DrvCalls.unlocked (calls : DrvCalls) : DrvCalls :=
  { calls with unlock := true }

@[simp] theorem unlockResult_true {α : Type} (ret : Except Errno α) :
    unlockResult true ret = ret := by
  cases ret <;> rfl

theorem unlockResult_ok {α : Type} {unlock : Bool} {ret : Except Errno α}
    {value : α} (result : unlockResult unlock ret = .ok value) :
    ret = .ok value := by
  cases ret with
  | error errno => simp [unlockResult] at result
  | ok given =>
    cases unlock with
    | false => simp [unlockResult] at result
    | true => simpa using result

namespace NatDrv

variable (drv : NatDrv) (tblHdl : Nat)

@[simp] theorem setCache_cache (mem : MemIn) (tbl : Option Ip4TableCache) :
    (drv.setCache mem tbl).cache = Function.update drv.cache mem tbl := rfl

@[simp] theorem setCache_pdns (mem : MemIn) (tbl : Option Ip4TableCache) :
    (drv.setCache mem tbl).pdns = drv.pdns := rfl

@[simp] theorem setCache_verAtLeast40 (mem : MemIn)
    (tbl : Option Ip4TableCache) :
    (drv.setCache mem tbl).verAtLeast40 = drv.verAtLeast40 := rfl

theorem natTable_eq_some {tbl : Ip4TableCache}
    (found : drv.natTable tblHdl = some tbl) :
    drv.cache (tblHdlMem tblHdl) = some tbl := by
  rw [natTable] at found
  split at found
  · exact found
  · cases found

theorem natiAddIpv4Rule_cases (clntRule : NatIpv4Rule) (calls : DrvCalls) :
    (∀ unlock, drv.natiAddIpv4Rule tblHdl clntRule
      { calls with unlock := unlock } = (drv, .error .einval)) ∨
    ∃ tbl tbl' token ret, drv.cache (tblHdlMem tblHdl) = some tbl ∧
      clntRule.protocol ≠ natInvalidProtocol ∧
      tbl.addRule drv clntRule calls.dma = (tbl', token, ret) ∧
      ∀ unlock, drv.natiAddIpv4Rule tblHdl clntRule
          { calls with unlock := unlock } =
        ({ drv.setCache (tblHdlMem tblHdl) (some tbl') with
            hashToken := token }, unlockResult unlock ret) := by
  cases validHdl : validTblHdl tblHdl with
  | false => exact Or.inl fun _ => by simp [natiAddIpv4Rule, validHdl]
  | true =>
    cases validRule : validClntRule drv.pdns clntRule with
    | false =>
      exact Or.inl fun _ => by simp [natiAddIpv4Rule, validHdl, validRule]
    | true =>
      have protocol : clntRule.protocol ≠ natInvalidProtocol :=
        (of_decide_eq_true validRule).1
      cases calls.lock with
      | false =>
        exact Or.inl fun _ => by
          simp [natiAddIpv4Rule, validHdl, validRule]
      | true =>
        cases found : drv.natTable tblHdl with
        | none =>
          exact Or.inl fun _ => by
            simp [natiAddIpv4Rule, validHdl, validRule, found]
        | some tbl =>
          rcases result : tbl.addRule drv clntRule calls.dma with
            ⟨tbl', token, ret⟩
          right
          refine ⟨tbl, tbl', token, ret,
            drv.natTable_eq_some tblHdl found, protocol, result,
            fun unlock => ?_⟩
          simp [natiAddIpv4Rule, validHdl, validRule, found,
            result]

theorem natiDelIpv4Rule_cases (ruleHdl : Nat) (calls : DrvCalls) :
    (∀ unlock, drv.natiDelIpv4Rule tblHdl ruleHdl
      { calls with unlock := unlock } = (drv, .error .einval)) ∨
    ∃ tbl tbl' ret, drv.cache (tblHdlMem tblHdl) = some tbl ∧
      tbl.delRule drv.pdns ruleHdl calls.dma = (tbl', ret) ∧
      ∀ unlock, drv.natiDelIpv4Rule tblHdl ruleHdl
          { calls with unlock := unlock } =
        (drv.setCache (tblHdlMem tblHdl) (some tbl'),
          unlockResult unlock ret) := by
  cases calls.lock with
  | false => exact Or.inl fun _ => by simp [natiDelIpv4Rule]
  | true =>
    cases found : drv.natTable tblHdl with
    | none =>
      exact Or.inl fun _ => by
        simp [natiDelIpv4Rule, found, unlockResult]
    | some tbl =>
      rcases result : tbl.delRule drv.pdns ruleHdl calls.dma with
        ⟨tbl', ret⟩
      right
      refine ⟨tbl, tbl', ret, drv.natTable_eq_some tblHdl found, result,
        fun unlock => ?_⟩
      simp [natiDelIpv4Rule, found, result]

theorem natiClearIpv4Tbl_cases (calls : DrvCalls) :
    (∀ unlock, drv.natiClearIpv4Tbl tblHdl { calls with unlock := unlock } =
      (drv, .error .einval)) ∨
    ∃ tbl, drv.cache (tblHdlMem tblHdl) = some tbl ∧
      ∀ unlock, drv.natiClearIpv4Tbl tblHdl { calls with unlock := unlock } =
        (drv.setCache (tblHdlMem tblHdl) (some (tbl.clear drv.pdns)),
          unlockResult unlock (.ok ())) := by
  cases calls.lock with
  | false => exact Or.inl fun _ => by simp [natiClearIpv4Tbl]
  | true =>
    cases found : drv.natTable tblHdl with
    | none =>
      exact Or.inl fun _ => by
        simp [natiClearIpv4Tbl, found, unlockResult]
    | some tbl =>
      right
      refine ⟨tbl, drv.natTable_eq_some tblHdl found, fun unlock => ?_⟩
      simp [natiClearIpv4Tbl, found]

end NatDrv

end VendorModules.IpaNat
