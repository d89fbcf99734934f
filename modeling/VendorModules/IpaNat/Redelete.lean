import VendorModules.IpaNat.Run

namespace VendorModules.IpaNat

open VendorModules.Lib

/-! An addition that fails takes back what it has done, in both tables. -/

namespace IpaTable

variable {E U : Type} {ei : EntryInterface E U} {table table' : IpaTable E}

/-- All that a later call can tell `table'` from `table` by is in free records. -/
structure Unchanged (ei : EntryInterface E U) (table table' : IpaTable E) : Prop where
  same : SameTable table table'
  filled : ∀ i, table'.isFilled ei i = table.isFilled ei i
  entries : ∀ i, table.isFilled ei i = true → table'.entries i = table.entries i
  prev : ∀ i, table.isFilled ei i = true → table'.prevIndex ei i = table.prevIndex ei i
  chains : ∀ b l, table.Busy ei b →
    (Follows (table'.nextIndex ei) 0 b l ↔ Follows (table.nextIndex ei) 0 b l)
  freeEntry : table'.findExpnTblFreeEntry ei = table.findExpnTblFreeEntry ei
  tblCnt : table'.curTblCnt = table.curTblCnt
  expnCnt : table'.curExpnTblCnt = table.curExpnTblCnt

theorem Unchanged.refl (ei : EntryInterface E U) (table : IpaTable E) : Unchanged ei table table :=
  ⟨SameTable.refl table, fun _ => rfl, fun _ _ => rfl, fun _ _ => rfl, fun _ _ _ => Iff.rfl, rfl,
    rfl, rfl⟩

theorem walkFrom_mtSlot_congr (filled : ∀ i, table'.isFilled ei i = table.isFilled ei i)
    (count start : Nat) :
    (walkFrom ei (fun table => table) .slotEmpty mtSlot count start table').2 =
      (walkFrom ei (fun table => table) .slotEmpty mtSlot count start table).2 := by
  induction count generalizing start with
  | zero => rfl
  | succ count ih =>
    rw [walkFrom, walkFrom, filled]
    split
    · by_cases first : start = 0
      · simp only [mtSlot, first, if_true]
        exact ih 1
      · simp only [mtSlot, first, if_false]
    · exact ih (start + 1)

theorem findExpnTblFreeEntry_congr (same : SameTable table table')
    (filled : ∀ i, table'.isFilled ei i = table.isFilled ei i) :
    table'.findExpnTblFreeEntry ei = table.findExpnTblFreeEntry ei := by
  have walked : (walk ei (fun table => table) .slotEmpty mtSlot table'.tableEntries table').2 =
      (walk ei (fun table => table) .slotEmpty mtSlot table.tableEntries table).2 := by
    simp only [walk, same.tableEntries, same.totTblEnts]
    split
    · rfl
    · exact congrArg Except.ok (walkFrom_mtSlot_congr filled ..)
  rw [findExpnTblFreeEntry, walked, findExpnTblFreeEntry]

theorem Placed.unchanged {e : Nat} {entry : E} (placed : Placed ei table table' e entry)
    (lawful : ei.Lawful) (free : table.isFilled ei e = false)
    (nextBusy : ∀ i, table.Busy ei i →
      table.nextIndex ei i = 0 ∨ table.Busy ei (table.nextIndex ei i)) :
    Unchanged ei table (table'.eraseEntry ei e) := by
  have same : SameTable table (table'.eraseEntry ei e) :=
    placed.same.trans (table'.eraseEntry_same e)
  have filled : ∀ i, (table'.eraseEntry ei e).isFilled ei i = table.isFilled ei i := by
    intro i
    rw [table'.isFilled_eraseEntry lawful e i]
    by_cases here : i = e
    · rw [if_pos here, here, free]
    · rw [if_neg here, isFilled, isFilled, placed.entries, if_neg here]
  have other : ∀ i, table.isFilled ei i = true → i ≠ e := by
    rintro i taken rfl
    exact absurd (free.symm.trans taken) (by decide)
  have entries : ∀ i, table.isFilled ei i = true →
      (table'.eraseEntry ei e).entries i = table.entries i := by
    intro i taken
    rw [eraseEntry_entries, Function.update_of_ne (other i taken), placed.entries,
      if_neg (other i taken)]
  have agree : ∀ i, table.Busy ei i →
      (table'.eraseEntry ei e).nextIndex ei i = table.nextIndex ei i := by
    intro i busy
    rw [nextIndex, nextIndex, entries i busy.2]
  refine ⟨same, filled, entries, ?_, ?_, findExpnTblFreeEntry_congr same filled, ?_, ?_⟩
  · intro i taken
    rw [table'.prevIndex_eraseEntry (other i taken), placed.prev i (other i taken)]
  · intro b l busy
    exact follows_congr nextBusy agree (.inr busy) l
  · rw [eraseEntry_curTblCnt, placed.same.tableEntries, placed.tblCnt]
    split
    · rw [Nat.add_sub_cancel]
    · rw [Nat.add_zero]
  · rw [eraseEntry_curExpnTblCnt, placed.same.tableEntries, placed.expnCnt]
    split
    · rw [Nat.add_zero]
    · rw [Nat.add_sub_cancel]

theorem makeEntryHdl_eq_zero_iff (table : IpaTable E) (i : Nat) :
    table.makeEntryHdl i = 0 ↔ table.nmi = .ddr ∧ i = 0 := by
  have size := table.two_le_tableEntries
  rw [makeEntryHdl]
  cases table.nmi with
  | ddr =>
    simp only [MemIn.code]
    split <;> simp <;> omega
  | sram =>
    simp only [MemIn.code]
    split <;> simp

end IpaTable

/-- What `ipa_NATI_add_ipv4_rule` leaves in `*rule_hdl`: it clears it as soon as it has accepted
its arguments. -/
def addedRuleHdl (tblHdl ruleHdl : Nat) (ret : Except Errno Nat) : Nat :=
  if !validTblHdl tblHdl then ruleHdl
  else
    match ret with
    | .ok newEntryHandle => newEntryHandle
    | .error _ => 0

structure Ip4TableCache.Unchanged (pdns : Pdns) (tbl tbl' : Ip4TableCache) : Prop where
  rules : tbl.table.Unchanged (entryInterface pdns) tbl'.table
  indexes : tbl.indexTable.Unchanged indexEntryInterface tbl'.indexTable
  live : ∀ i, tbl'.table.Live i ↔ tbl.table.Live i

namespace Ip4TableCache

variable {drv : NatDrv} {tbl tbl' : Ip4TableCache} {clntRule : NatIpv4Rule} {dma : Bool}
  {token : Nat}

theorem Unchanged.refl (pdns : Pdns) (tbl : Ip4TableCache) : tbl.Unchanged pdns tbl :=
  ⟨.refl _ _, .refl _ _, fun _ => Iff.rfl⟩

theorem unchanged_of_tables {pdns : Pdns}
    (rules : tbl.table.Unchanged (entryInterface pdns) tbl'.table)
    (indexes : tbl.indexTable.Unchanged indexEntryInterface tbl'.indexTable) :
    tbl.Unchanged pdns tbl' := by
  refine ⟨rules, indexes, fun i => ?_⟩
  have filled : (tbl'.table.entries i).enable = (tbl.table.entries i).enable := rules.filled i
  have same : (tbl.table.entries i).enable = true →
      tbl'.table.entries i = tbl.table.entries i := rules.entries i
  rw [IpaTable.Live, IpaTable.Live, rules.same.totTblEnts, filled]
  apply and_congr_right
  intro _
  apply and_congr_right
  intro enabled
  rw [same enabled]

theorem addRule_unchanged (wired : tbl.Wired) (wellFormed : tbl.WellFormed drv.pdns) {errno : Errno}
    (failed : tbl.addRule drv clntRule dma = (tbl', token, .error errno)) :
    tbl.Unchanged drv.pdns tbl' := by
  have lawful := entryInterface_lawful drv.pdns
  have bucketLt := tbl.entryBucket_lt drv clntRule
  have indexBucketLt := tbl.indexBucket_lt (drv.hashToken + clntRule.srcOnly.toNat) clntRule
  rw [← wired.tableEntries] at indexBucketLt
  unfold addRule at failed
  dsimp only at failed
  cases ruleAdd : tbl.table.addEntry (entryInterface drv.pdns) clntRule
      (tbl.entryBucket drv clntRule) [] with
  | error errno' =>
    simp only [ruleAdd, Prod.mk.injEq] at failed
    obtain ⟨rfl, -, -⟩ := failed
    exact unchanged_of_tables (.refl _ _) (.refl _ _)
  | ok added =>
    obtain ⟨table, e, cmd⟩ := added
    obtain ⟨placed, -, free, -⟩ := IpaTable.addEntry_placed lawful bucketLt ruleAdd
    simp only [ruleAdd] at failed
    cases indexAdd : tbl.indexTable.addEntry indexEntryInterface e
        (tbl.indexBucket (drv.hashToken + clntRule.srcOnly.toNat) clntRule) cmd with
    | error errno' =>
      simp only [indexAdd, Prod.mk.injEq] at failed
      obtain ⟨rfl, -, -⟩ := failed
      exact unchanged_of_tables (placed.unchanged lawful free wellFormed.rules.nextBusy) (.refl _ _)
    | ok indexAdded =>
      obtain ⟨indexTable, j, cmd'⟩ := indexAdded
      obtain ⟨indexPlaced, -, indexFree, -⟩ :=
        IpaTable.addEntry_placed indexEntryInterface_lawful indexBucketLt indexAdd
      have indexes := indexPlaced.unchanged indexEntryInterface_lawful indexFree
        wellFormed.indexes.nextBusy
      simp only [indexAdd] at failed
      split at failed
      · simp only [Prod.mk.injEq] at failed
        obtain ⟨rfl, -, -⟩ := failed
        exact unchanged_of_tables (placed.unchanged lawful free wellFormed.rules.nextBusy) indexes
      · split at failed
        · simp at failed
        · simp only [Prod.mk.injEq] at failed
          obtain ⟨rfl, -, -⟩ := failed
          exact unchanged_of_tables
            ((placed.set _).unchanged lawful free wellFormed.rules.nextBusy) indexes

end Ip4TableCache

/-- What an addition that fails leaves behind: the other cache, this one's tables up to free
records, and a handle of no record on a chain. -/
theorem natiAddIpv4Rule_unchanged {drv : NatDrv} {tblHdl : Nat} {clntRule : NatIpv4Rule}
    {calls : DrvCalls} {tbl : Ip4TableCache} {errno : Errno} (wired : tbl.Wired)
    (wellFormed : tbl.WellFormed drv.pdns) (found : drv.natTable tblHdl = some tbl)
    (failed : (drv.natiAddIpv4Rule tblHdl clntRule calls.unlocked).2 = .error errno) :
    (∃ tbl', (drv.natiAddIpv4Rule tblHdl clntRule calls).1.cache =
        Function.update drv.cache (tblHdlMem tblHdl) (some tbl') ∧ tbl.Unchanged drv.pdns tbl') ∧
      ∀ ruleHdl, addedRuleHdl tblHdl ruleHdl (drv.natiAddIpv4Rule tblHdl clntRule calls).2 = 0 ∧
        ∀ (table : IpaTable NatRule) i, table.makeEntryHdl i = 0 ↔ table.nmi = .ddr ∧ i = 0 := by
  have valid : validTblHdl tblHdl = true := by
    cases refused : validTblHdl tblHdl with
    | true => rfl
    | false => simp [NatDrv.natTable, refused] at found
  have cached := drv.natTable_eq_some tblHdl found
  have handle {ret : Except Errno Nat} {errno : Errno} (error : ret = .error errno)
      (ruleHdl : Nat) : addedRuleHdl tblHdl ruleHdl ret = 0 ∧
        ∀ (table : IpaTable NatRule) i, table.makeEntryHdl i = 0 ↔ table.nmi = .ddr ∧ i = 0 := by
    refine ⟨?_, IpaTable.makeEntryHdl_eq_zero_iff⟩
    simp only [addedRuleHdl, valid, error, Bool.not_true, Bool.false_eq_true, if_false]
  rcases drv.natiAddIpv4Rule_cases tblHdl clntRule calls with
    refused | ⟨tbl₀, tbl', token, ret, found', -, result, effect⟩
  · have outcome := refused calls.unlock
    refine ⟨⟨tbl, ?_, .refl _ _⟩, handle (congrArg Prod.snd outcome)⟩
    rw [outcome, ← cached, Function.update_eq_self]
  · rw [cached, Option.some.injEq] at found'
    subst found'
    have error : ret = .error errno := by
      rw [DrvCalls.unlocked, effect true, unlockResult_true] at failed
      exact failed
    subst error
    have outcome := effect calls.unlock
    refine ⟨⟨tbl', ?_, Ip4TableCache.addRule_unchanged wired wellFormed result⟩,
      handle (congrArg Prod.snd outcome)⟩
    rw [outcome]
    rfl

def NatRun.sampleAdd : NatRun := NatRun.sampleStart.add 1 (.sample 1) .allOk

theorem NatRun.sampleAdd_reachable : Reachable NatRun.Start NatRun.Step NatRun.sampleAdd :=
  .next (.start NatRun.sampleStart_start) (.add 1 _ .allOk rfl)

/-- A second rule of the same bucket whose commands are not posted. -/
theorem sampleAdd_unchanged :
    ∃ tbl, NatRun.sampleAdd.drv.natTable 1 = some tbl ∧
      (∃ tbl', (NatRun.sampleAdd.drv.natiAddIpv4Rule 1 (.sample 2) ⟨true, false, true⟩).1.cache =
          Function.update NatRun.sampleAdd.drv.cache .ddr (some tbl') ∧
        tbl.Unchanged NatRun.sampleAdd.drv.pdns tbl') ∧
      ∀ ruleHdl, addedRuleHdl 1 ruleHdl
          (NatRun.sampleAdd.drv.natiAddIpv4Rule 1 (.sample 2) ⟨true, false, true⟩).2 = 0 ∧
        ∀ (table : IpaTable NatRule) i, table.makeEntryHdl i = 0 ↔ table.nmi = .ddr ∧ i = 0 := by
  obtain ⟨tbl, found⟩ := Option.isSome_iff_exists.mp
    (show (NatRun.sampleAdd.drv.natTable 1).isSome = true by decide +kernel)
  obtain ⟨_, _, tracked⟩ := (NatRun.tracks_of_reachable NatRun.sampleAdd_reachable).tracked
    (NatRun.sampleAdd.drv.natTable_eq_some 1 found)
  have failed : (NatRun.sampleAdd.drv.natiAddIpv4Rule 1 (.sample 2)
      (DrvCalls.unlocked ⟨true, false, true⟩)).2 = .error .eio := by
    decide +kernel
  exact ⟨tbl, found, natiAddIpv4Rule_unchanged tracked.consistent.wired
    tracked.consistent.wellFormed found failed⟩

/-- The handle that is left after an addition to a table in DDR has failed is that of a record of
the table. -/
theorem sampleAdd_error_hdl :
    (NatRun.sampleAdd.drv.natiAddIpv4Rule 1 (.sample 2) ⟨true, false, true⟩).2 = .error .eio ∧
      addedRuleHdl 1 7
          (NatRun.sampleAdd.drv.natiAddIpv4Rule 1 (.sample 2) ⟨true, false, true⟩).2 =
        (Ip4TableCache.create .ddr .smallest).table.makeEntryHdl 0 := by
  decide +kernel

end VendorModules.IpaNat

namespace VendorModules.IpaNat

open VendorModules.Lib

/-! Deletions that fail, and deletions of rules that are no longer there. -/

namespace IpaTable

variable {E U : Type} {ei : EntryInterface E U} {table : IpaTable E} {i : Nat}

def HeadWithTail (ei : EntryInterface E U) (table : IpaTable E) (i : Nat) : Prop :=
  table.nextIndex ei i ≠ 0 ∧ table.prevIndex ei i = 0

instance : Decidable (table.HeadWithTail ei i) := inferInstanceAs (Decidable (_ ∧ _))

instance : Decidable (table.Busy ei i) := inferInstanceAs (Decidable (_ ∧ _))

namespace WellFormed

theorem iteratorInit_eq (wellFormed : table.WellFormed ei) (busy : table.Busy ei i) :
    table.iteratorInit ei i = .ok ⟨table.prevIndex ei i, i, table.nextIndex ei i⟩ := by
  have prevFound : ¬(table.prevIndex ei i ≠ 0 ∧
      table.getEntryByIndex (table.prevIndex ei i) = none) := by
    rintro ⟨nonzero, missing⟩
    have prevBusy := (wellFormed.prevBusy i busy).resolve_left nonzero
    rw [table.getEntryByIndex_eq_some nonzero prevBusy.1] at missing
    cases missing
  have nextFound : ¬(table.nextIndex ei i ≠ 0 ∧
      table.getEntryByIndex (table.nextIndex ei i) = none) := by
    rintro ⟨nonzero, missing⟩
    have nextBusy := (wellFormed.nextBusy i busy).resolve_left nonzero
    rw [table.getEntryByIndex_eq_some nonzero nextBusy.1] at missing
    cases missing
  simp only [iteratorInit, busy.2, Bool.not_true, Bool.false_eq_true, if_false,
    if_neg prevFound, if_neg nextFound]

theorem iteratorNext_eq (wellFormed : table.WellFormed ei) (busy : table.Busy ei i) (prev : Nat)
    (more : table.nextIndex ei i ≠ 0) :
    table.iteratorNext ei ⟨prev, i, table.nextIndex ei i⟩ =
      .ok ⟨i, table.nextIndex ei i, table.nextIndex ei (table.nextIndex ei i)⟩ := by
  have nextBusy := (wellFormed.nextBusy i busy).resolve_left more
  have found : ¬(table.nextIndex ei (table.nextIndex ei i) ≠ 0 ∧
      table.getEntryByIndex (table.nextIndex ei (table.nextIndex ei i)) = none) := by
    rintro ⟨nonzero, missing⟩
    have afterBusy := (wellFormed.nextBusy _ nextBusy).resolve_left nonzero
    rw [table.getEntryByIndex_eq_some nonzero afterBusy.1] at missing
    cases missing
  simp only [iteratorNext, if_neg found]

end WellFormed

end IpaTable

namespace Ip4TableCache

variable {pdns : Pdns} {tbl tbl' : Ip4TableCache} {e : Nat} {dma : Bool}

theorem finishDelete_unposted (pdns : Pdns) (tbl : Ip4TableCache)
    (tableIterator indexTableIterator : TableIterator) (cmd : DmaCmd) :
    finishDelete pdns tbl tableIterator indexTableIterator cmd false = (tbl, .error .eio) := by
  simp only [finishDelete, Bool.not_false, if_true]

theorem finishDelete_posted (pdns : Pdns) (tbl : Ip4TableCache)
    (tableIterator indexTableIterator : TableIterator) (cmd : DmaCmd) :
    (finishDelete pdns tbl tableIterator indexTableIterator cmd true).2 = .ok () := by
  simp only [finishDelete, Bool.not_true, Bool.false_eq_true, if_false]

def prepared (tbl : Ip4TableCache) (j : Nat) : Ip4TableCache :=
  if tbl.indexTable.HeadWithTail indexEntryInterface j then
    { tbl with
      table :=
        let second := (tbl.indexTable.entries (tbl.indexTable.entries j).nextIndex).tblEntry
        tbl.table.setEntry second { tbl.table.entries second with indxTblEntry := j } }
  else tbl

theorem delRule_posting (rules : tbl.table.WellFormed (entryInterface pdns))
    (indexes : tbl.indexTable.WellFormed indexEntryInterface)
    (busy : tbl.table.Busy (entryInterface pdns) e)
    (nonzero : (tbl.table.entries e).indxTblEntry ≠ 0)
    (indexBusy : tbl.indexTable.Busy indexEntryInterface (tbl.table.entries e).indxTblEntry)
    (dma : Bool) :
    ∃ tableIterator iterator cmd, tbl.delRule pdns (tbl.table.makeEntryHdl e) dma =
      finishDelete pdns (tbl.prepared (tbl.table.entries e).indxTblEntry) tableIterator iterator
        cmd dma := by
  generalize indx : (tbl.table.entries e).indxTblEntry = j at nonzero indexBusy ⊢
  unfold delRule
  dsimp only
  simp only [tbl.table.getEntry_makeEntryHdl busy.1, rules.iteratorInit_eq busy, indx,
    tbl.indexTable.getEntryByIndex_eq_some nonzero indexBusy.1,
    indexes.iteratorInit_eq indexBusy]
  by_cases head : tbl.indexTable.HeadWithTail indexEntryInterface j
  · have isHead : TableIterator.isHeadWithTail ⟨tbl.indexTable.prevIndex indexEntryInterface j, j,
        tbl.indexTable.nextIndex indexEntryInterface j⟩ = true := decide_eq_true head
    rw [if_pos isHead]
    have same : (tbl.copySecondIndexEntryToHead
        ⟨tbl.indexTable.prevIndex indexEntryInterface j, j,
          tbl.indexTable.nextIndex indexEntryInterface j⟩
        (tbl.indexTable.createDeleteCommand indexEntryInterface []
          ⟨tbl.indexTable.prevIndex indexEntryInterface j, j,
            tbl.indexTable.nextIndex indexEntryInterface j⟩)).1 = tbl.prepared j := by
      rw [prepared, if_pos head]
      rfl
    have index : (tbl.prepared j).indexTable = tbl.indexTable := by
      rw [prepared, if_pos head]
    simp only [same, index, indexes.iteratorNext_eq indexBusy _ head.1]
    exact ⟨_, _, _, rfl⟩
  · have notHead : ¬TableIterator.isHeadWithTail
        ⟨tbl.indexTable.prevIndex indexEntryInterface j, j,
          tbl.indexTable.nextIndex indexEntryInterface j⟩ = true := fun h =>
      head (of_decide_eq_true h)
    rw [if_neg notHead, prepared, if_neg head]
    exact ⟨_, _, _, rfl⟩

def Lingers (tbl : Ip4TableCache) (e : Nat) : Prop :=
  (tbl.table.entries e).enable = true ∧
    tbl.indexTable.Busy indexEntryInterface (tbl.table.entries e).indxTblEntry

instance : Decidable (tbl.Lingers e) := inferInstanceAs (Decidable (_ ∧ _))

theorem delRule_spent (inside : e < tbl.table.totTblEnts) (spent : ¬ tbl.Lingers e) (dma : Bool) :
    ∃ errno, tbl.delRule pdns (tbl.table.makeEntryHdl e) dma = (tbl, .error errno) := by
  unfold delRule
  dsimp only
  simp only [tbl.table.getEntry_makeEntryHdl inside]
  cases started : tbl.table.iteratorInit (entryInterface pdns) e with
  | error errno => exact ⟨errno, rfl⟩
  | ok tableIterator =>
    have enabled : (tbl.table.entries e).enable = true := by
      cases free : (tbl.table.entries e).enable with
      | true => rfl
      | false =>
        have vacant : tbl.table.isFilled (entryInterface pdns) e = false := free
        simp [IpaTable.iteratorInit, vacant] at started
    dsimp only
    cases cached : tbl.indexTable.getEntryByIndex (tbl.table.entries e).indxTblEntry with
    | none => exact ⟨.eperm, rfl⟩
    | some record =>
      have indexInside : (tbl.table.entries e).indxTblEntry < tbl.indexTable.totTblEnts := by
        by_contra outside
        rw [IpaTable.getEntryByIndex, if_pos (Or.inr (Nat.le_of_not_lt outside))] at cached
        cases cached
      have vacant : tbl.indexTable.isFilled indexEntryInterface
          (tbl.table.entries e).indxTblEntry = false := by
        rw [← Bool.not_eq_true]
        exact fun filled => spent ⟨enabled, indexInside, filled⟩
      refine ⟨.einval, ?_⟩
      simp only [IpaTable.iteratorInit, vacant, Bool.not_false, if_true]

theorem delRule_lingers (rules : tbl.table.WellFormed (entryInterface pdns))
    (indexes : tbl.indexTable.WellFormed indexEntryInterface)
    (inside : e < tbl.table.totTblEnts) (nonzero : (tbl.table.entries e).indxTblEntry ≠ 0)
    (lingers : tbl.Lingers e) :
    (tbl.delRule pdns (tbl.table.makeEntryHdl e) true).2 = .ok () := by
  obtain ⟨tableIterator, iterator, cmd, posts⟩ :=
    delRule_posting rules indexes ⟨inside, lingers.1⟩ nonzero lingers.2 true
  rw [posts, finishDelete_posted]

theorem delRule_unposted (rules : tbl.table.WellFormed (entryInterface pdns))
    (indexes : tbl.indexTable.WellFormed indexEntryInterface)
    (busy : tbl.table.Busy (entryInterface pdns) e)
    (nonzero : (tbl.table.entries e).indxTblEntry ≠ 0)
    (indexBusy : tbl.indexTable.Busy indexEntryInterface (tbl.table.entries e).indxTblEntry) :
    tbl.delRule pdns (tbl.table.makeEntryHdl e) false =
      (tbl.prepared (tbl.table.entries e).indxTblEntry, .error .eio) := by
  obtain ⟨tableIterator, iterator, cmd, posts⟩ :=
    delRule_posting rules indexes busy nonzero indexBusy false
  rw [posts, finishDelete_unposted]

theorem not_unchanged_prepared (wellFormed : tbl.WellFormed pdns) {j : Nat}
    (busy : tbl.indexTable.Busy indexEntryInterface j)
    (head : tbl.indexTable.HeadWithTail indexEntryInterface j) :
    ¬ tbl.Unchanged pdns (tbl.prepared j) := by
  intro unchanged
  have kBusy := (wellFormed.indexes.nextBusy j busy).resolve_left head.1
  obtain ⟨second, live, crossed⟩ := wellFormed.crossed.surjOn kBusy
  have back := wellFormed.back second live
  have crossed : (tbl.table.entries second).indxTblEntry = (tbl.indexTable.entries j).nextIndex :=
    crossed
  rw [crossed] at back
  have same := unchanged.rules.entries second live.2.1
  have moved : ((tbl.prepared j).table.entries second).indxTblEntry = j := by
    rw [prepared, if_pos head]
    simp only [back, IpaTable.setEntry_entries, if_true]
  rw [same, crossed] at moved
  -- then the chain would go on where it began
  have prev := (wellFormed.indexes.inverse j j busy busy).mp moved
  rw [head.2] at prev
  have loop : tbl.indexTable.nextIndex indexEntryInterface j = j := moved
  exact head.1 (loop.trans prev.symm)

end Ip4TableCache

namespace NatDrv

variable {drv : NatDrv} {tblHdl ruleHdl : Nat} {tbl : Ip4TableCache}

/-- A deletion whose commands are not posted leaves the tables as they are and can be made again. -/
def DelUnchanged (drv : NatDrv) (tblHdl ruleHdl : Nat) (tbl : Ip4TableCache) : Prop :=
  ∀ unlock, (drv.natiDelIpv4Rule tblHdl ruleHdl ⟨true, false, unlock⟩).2 = .error .eio →
    (∃ tbl', (drv.natiDelIpv4Rule tblHdl ruleHdl ⟨true, false, unlock⟩).1 =
        drv.setCache (tblHdlMem tblHdl) (some tbl') ∧ tbl.Unchanged drv.pdns tbl') ∧
      ((drv.natiDelIpv4Rule tblHdl ruleHdl ⟨true, false, unlock⟩).1.natiDelIpv4Rule tblHdl ruleHdl
        .allOk).2 = .ok ()

theorem natiDelIpv4Rule_eq (found : drv.natTable tblHdl = some tbl) (ruleHdl : Nat)
    (dma unlock : Bool) :
    drv.natiDelIpv4Rule tblHdl ruleHdl ⟨true, dma, unlock⟩ =
      (drv.setCache (tblHdlMem tblHdl) (some (tbl.delRule drv.pdns ruleHdl dma).1),
        unlockResult unlock (tbl.delRule drv.pdns ruleHdl dma).2) := by
  simp only [natiDelIpv4Rule, Bool.not_true, Bool.false_eq_true, if_false, found]

theorem setCache_self (found : drv.natTable tblHdl = some tbl) :
    drv.setCache (tblHdlMem tblHdl) (some tbl) = drv := by
  rw [setCache, ← drv.natTable_eq_some tblHdl found, Function.update_eq_self]

theorem not_delUnchanged (wellFormed : tbl.WellFormed drv.pdns)
    (found : drv.natTable tblHdl = some tbl) {e : Nat} (live : tbl.table.Live e)
    (indexBusy : tbl.indexTable.Busy indexEntryInterface (tbl.table.entries e).indxTblEntry)
    (nonzero : (tbl.table.entries e).indxTblEntry ≠ 0)
    (head : tbl.indexTable.HeadWithTail indexEntryInterface (tbl.table.entries e).indxTblEntry) :
    ¬ drv.DelUnchanged tblHdl (tbl.table.makeEntryHdl e) tbl := by
  have unposted := Ip4TableCache.delRule_unposted wellFormed.rules wellFormed.indexes live.busy
    nonzero indexBusy
  intro undone
  obtain ⟨⟨tbl', cached, unchanged⟩, -⟩ := undone true (by
    rw [natiDelIpv4Rule_eq found, unposted]
    rfl)
  rw [natiDelIpv4Rule_eq found, unposted] at cached
  have here := congrArg (fun drv => drv.cache (tblHdlMem tblHdl)) cached
  simp only [setCache_cache, Function.update_self, Option.some.injEq] at here
  rw [← here] at unchanged
  exact Ip4TableCache.not_unchanged_prepared wellFormed indexBusy head unchanged

/-- A deletion that is not posted is undone for every rule but those whose index record is the
head of a longer chain. -/
theorem delUnchanged_iff (wellFormed : tbl.WellFormed drv.pdns)
    (found : drv.natTable tblHdl = some tbl) {e : Nat} (live : tbl.table.Live e) :
    drv.DelUnchanged tblHdl (tbl.table.makeEntryHdl e) tbl ↔
      ¬((tbl.table.entries e).indxTblEntry ≠ 0 ∧
        tbl.indexTable.HeadWithTail indexEntryInterface (tbl.table.entries e).indxTblEntry) := by
  have indexBusy : tbl.indexTable.Busy indexEntryInterface (tbl.table.entries e).indxTblEntry :=
    wellFormed.crossed.mapsTo live
  by_cases nonzero : (tbl.table.entries e).indxTblEntry = 0
  · refine iff_of_true (fun unlock failed => ?_) fun bad => bad.1 nonzero
    have refused : (tbl.delRule drv.pdns (tbl.table.makeEntryHdl e) false).2 =
        .error .eperm := by
      unfold Ip4TableCache.delRule
      dsimp only
      simp only [tbl.table.getEntry_makeEntryHdl live.1,
        wellFormed.rules.iteratorInit_eq live.busy, nonzero]
      rfl
    rw [natiDelIpv4Rule_eq found, refused] at failed
    cases failed
  · have unposted := Ip4TableCache.delRule_unposted wellFormed.rules wellFormed.indexes live.busy
      nonzero indexBusy
    constructor
    · rintro undone ⟨-, head⟩
      exact not_delUnchanged wellFormed found live indexBusy nonzero head undone
    · intro notHead unlock _
      have same : tbl.prepared (tbl.table.entries e).indxTblEntry = tbl := by
        rw [Ip4TableCache.prepared, if_neg fun head => notHead ⟨nonzero, head⟩]
      rw [natiDelIpv4Rule_eq found, unposted, same]
      refine ⟨⟨tbl, rfl, .refl _ _⟩, ?_⟩
      dsimp only
      rw [setCache_self found, DrvCalls.allOk, natiDelIpv4Rule_eq found, unlockResult_true]
      exact Ip4TableCache.delRule_lingers wellFormed.rules wellFormed.indexes live.1 nonzero
        ⟨live.2.1, indexBusy⟩

end NatDrv

theorem NatRun.sampleAdd_table : ∃ tbl, NatRun.sampleAdd.drv.natTable 1 = some tbl ∧
    tbl.WellFormed NatRun.sampleAdd.drv.pdns ∧ tbl.table.makeEntryHdl 1 = 2 ∧ tbl.table.Live 1 := by
  obtain ⟨tbl, found⟩ := Option.isSome_iff_exists.mp
    (show (NatRun.sampleAdd.drv.natTable 1).isSome = true by decide +kernel)
  obtain ⟨_, _, tracked⟩ := (NatRun.tracks_of_reachable NatRun.sampleAdd_reachable).tracked
    (NatRun.sampleAdd.drv.natTable_eq_some 1 found)
  have facts : (NatRun.sampleAdd.drv.natTable 1).all (fun tbl =>
      decide (tbl.table.makeEntryHdl 1 = 2 ∧ tbl.table.Live 1)) = true := by decide +kernel
  rw [found] at facts
  exact ⟨tbl, found, tracked.consistent.wellFormed, of_decide_eq_true facts⟩

theorem NatRun.sampleAdd_delUnchanged : ∃ tbl, NatRun.sampleAdd.drv.natTable 1 = some tbl ∧
    (NatRun.sampleAdd.drv.DelUnchanged 1 (tbl.table.makeEntryHdl 1) tbl ↔
      ¬((tbl.table.entries 1).indxTblEntry ≠ 0 ∧
        tbl.indexTable.HeadWithTail indexEntryInterface (tbl.table.entries 1).indxTblEntry)) := by
  obtain ⟨tbl, found, wellFormed, -, live⟩ := NatRun.sampleAdd_table
  exact ⟨tbl, found, NatDrv.delUnchanged_iff wellFormed found live⟩

def NatRun.sampleBoth : NatRun := NatRun.sampleAdd.add 1 (.sample 2) .allOk

/-- The second rule is told of a move of its index record that is never made. -/
theorem NatRun.sampleBoth_moved : ∃ tbl, NatRun.sampleBoth.drv.natTable 1 = some tbl ∧
    tbl.WellFormed NatRun.sampleBoth.drv.pdns ∧ tbl.table.Live 1 ∧
    ¬ NatRun.sampleBoth.drv.DelUnchanged 1 (tbl.table.makeEntryHdl 1) tbl := by
  obtain ⟨tbl, found⟩ := Option.isSome_iff_exists.mp
    (show (NatRun.sampleBoth.drv.natTable 1).isSome = true by decide +kernel)
  have reached : Reachable NatRun.Start NatRun.Step NatRun.sampleBoth :=
    .next NatRun.sampleAdd_reachable (.add 1 _ .allOk rfl)
  obtain ⟨_, _, tracked⟩ := (NatRun.tracks_of_reachable reached).tracked
    (NatRun.sampleBoth.drv.natTable_eq_some 1 found)
  have facts : (NatRun.sampleBoth.drv.natTable 1).all (fun tbl => decide (tbl.table.Live 1 ∧
      tbl.indexTable.Busy indexEntryInterface (tbl.table.entries 1).indxTblEntry ∧
      (tbl.table.entries 1).indxTblEntry ≠ 0 ∧
      tbl.indexTable.HeadWithTail indexEntryInterface (tbl.table.entries 1).indxTblEntry)) =
        true := by
    decide +kernel
  rw [found] at facts
  obtain ⟨live, indexBusy, nonzero, head⟩ := of_decide_eq_true facts
  exact ⟨tbl, found, tracked.consistent.wellFormed, live,
    NatDrv.not_delUnchanged tracked.consistent.wellFormed found live indexBusy nonzero head⟩

/-! ### Deletions of what is gone -/

namespace NatRun

variable {run run' : NatRun} {tblHdl e : Nat} {tbl : Ip4TableCache}

def Gone (run : NatRun) (tblHdl : Nat) (tbl : Ip4TableCache) (e : Nat) : Prop :=
  run.drv.natTable tblHdl = some tbl ∧ e < tbl.table.totTblEnts ∧
    tbl.table.makeEntryHdl e ∉ (run.live (tblHdlMem tblHdl)).map Prod.fst

/-- One call. A deletion whose commands are not posted is not of the head of an index chain, and
what is gone is deleted again only where nothing of it lingers. -/
inductive SafeStep (run : NatRun) : NatRun → Prop
  | add (tblHdl : Nat) (clntRule : NatIpv4Rule) (calls : DrvCalls) :
      SafeStep run (run.add tblHdl clntRule calls)
  | del (tblHdl ruleHdl : Nat) (calls : DrvCalls) (dma : calls.dma = true)
      (held : ruleHdl ∈ (run.live (tblHdlMem tblHdl)).map Prod.fst) :
      SafeStep run (run.del tblHdl ruleHdl calls)
  | delUnposted (tblHdl : Nat) (tbl : Ip4TableCache) (e : Nat) (calls : DrvCalls)
      (found : run.drv.natTable tblHdl = some tbl) (live : tbl.table.Live e)
      (dma : calls.dma = false)
      (notHead : ¬ tbl.indexTable.HeadWithTail indexEntryInterface
        (tbl.table.entries e).indxTblEntry) :
      SafeStep run (run.del tblHdl (tbl.table.makeEntryHdl e) calls)
  | redel (tblHdl : Nat) (tbl : Ip4TableCache) (e : Nat) (calls : DrvCalls)
      (gone : run.Gone tblHdl tbl e) (spent : ¬ tbl.Lingers e) :
      SafeStep run (run.del tblHdl (tbl.table.makeEntryHdl e) calls)
  | clear (tblHdl : Nat) (calls : DrvCalls) :
      SafeStep run (run.clear tblHdl calls)

theorem natiDelIpv4Rule_spent (gone : run.Gone tblHdl tbl e) (spent : ¬ tbl.Lingers e)
    (calls : DrvCalls) :
    ∃ errno, run.drv.natiDelIpv4Rule tblHdl (tbl.table.makeEntryHdl e) calls =
      (run.drv, .error errno) := by
  obtain ⟨found, inside, -⟩ := gone
  obtain ⟨lock, dma, unlock⟩ := calls
  cases lock with
  | false => exact ⟨.einval, by simp [NatDrv.natiDelIpv4Rule]⟩
  | true =>
    obtain ⟨errno, refused⟩ : ∃ errno, tbl.delRule run.drv.pdns (tbl.table.makeEntryHdl e) dma =
        (tbl, .error errno) := Ip4TableCache.delRule_spent inside spent dma
    refine ⟨errno, ?_⟩
    rw [NatDrv.natiDelIpv4Rule_eq found, refused, NatDrv.setCache_self found]
    rfl

theorem Tracks.natiDelIpv4Rule_unposted (tracks : run.Tracks)
    (found : run.drv.natTable tblHdl = some tbl) (live : tbl.table.Live e)
    (notHead : ¬ tbl.indexTable.HeadWithTail indexEntryInterface
      (tbl.table.entries e).indxTblEntry) {calls : DrvCalls} (dma : calls.dma = false) :
    ∃ errno, run.drv.natiDelIpv4Rule tblHdl (tbl.table.makeEntryHdl e) calls =
      (run.drv, .error errno) := by
  obtain ⟨lock, posted, unlock⟩ := calls
  obtain rfl : posted = false := dma
  cases lock with
  | false => exact ⟨.einval, by simp [NatDrv.natiDelIpv4Rule]⟩
  | true =>
    obtain ⟨chain, indexChain, tracked⟩ :=
      tracks.tracked (run.drv.natTable_eq_some tblHdl found)
    have wellFormed := tracked.consistent.wellFormed
    have indexBusy := wellFormed.crossed.mapsTo live
    have unposted := Ip4TableCache.delRule_unposted wellFormed.rules wellFormed.indexes live.busy
      (tracked.consistent.indexes.busy_ne_zero indexBusy) indexBusy
    rw [Ip4TableCache.prepared, if_neg notHead] at unposted
    refine ⟨.eio, ?_⟩
    rw [NatDrv.natiDelIpv4Rule_eq found, unposted, NatDrv.setCache_self found]
    rfl

theorem Tracks.del_refused (tracks : run.Tracks) {ruleHdl : Nat} {calls : DrvCalls}
    (refused : ∃ errno, run.drv.natiDelIpv4Rule tblHdl ruleHdl calls = (run.drv, .error errno))
    (unlocked : ∃ errno, run.drv.natiDelIpv4Rule tblHdl ruleHdl calls.unlocked =
      (run.drv, .error errno)) : (run.del tblHdl ruleHdl calls).Tracks := by
  obtain ⟨errno, refused⟩ := refused
  obtain ⟨errno', unlocked⟩ := unlocked
  rw [NatRun.del, refused, unlocked]
  exact tracks

theorem Tracks.safeStep (tracks : run.Tracks) (taken : SafeStep run run') : run'.Tracks := by
  cases taken with
  | add tblHdl clntRule calls => exact tracks.add tblHdl clntRule calls
  | del tblHdl ruleHdl calls dma held => exact tracks.del tblHdl ruleHdl dma held
  | delUnposted tblHdl tbl e calls found live dma notHead =>
    exact tracks.del_refused (tracks.natiDelIpv4Rule_unposted found live notHead dma)
      (tracks.natiDelIpv4Rule_unposted found live notHead dma)
  | redel tblHdl tbl e calls gone spent =>
    exact tracks.del_refused (natiDelIpv4Rule_spent gone spent calls)
      (natiDelIpv4Rule_spent gone spent calls.unlocked)
  | clear tblHdl calls => exact tracks.clear tblHdl calls

/-- A second deletion is turned down and changes nothing exactly if nothing of the rule lingers. -/
theorem redelete_iff_of_reachable (reached : Reachable Start SafeStep run)
    (gone : run.Gone tblHdl tbl e) :
    (∀ calls, ∃ errno, run.drv.natiDelIpv4Rule tblHdl (tbl.table.makeEntryHdl e) calls =
      (run.drv, .error errno)) ↔ ¬ tbl.Lingers e := by
  have tracks : run.Tracks := reached.invariant (fun _ start => Tracks.of_start start)
    fun _ _ tracks taken => tracks.safeStep taken
  obtain ⟨found, inside, -⟩ := id gone
  constructor
  · intro refused lingers
    obtain ⟨chain, indexChain, tracked⟩ :=
      tracks.tracked (run.drv.natTable_eq_some tblHdl found)
    have wellFormed := tracked.consistent.wellFormed
    have nonzero := tracked.consistent.indexes.busy_ne_zero lingers.2
    obtain ⟨errno, outcome⟩ := refused .allOk
    have failed := congrArg Prod.snd outcome
    rw [DrvCalls.allOk, NatDrv.natiDelIpv4Rule_eq found, unlockResult_true,
      Ip4TableCache.delRule_lingers wellFormed.rules wellFormed.indexes inside nonzero lingers]
      at failed
    cases failed
  · intro spent calls
    exact natiDelIpv4Rule_spent gone spent calls

/-- A rule that was alone is taken out, and then once more. -/
theorem sampleAdd_redelete : ∃ tbl, (sampleAdd.del 1 2 .allOk).Gone 1 tbl 1 ∧
    ((∀ calls, ∃ errno, (sampleAdd.del 1 2 .allOk).drv.natiDelIpv4Rule 1
      (tbl.table.makeEntryHdl 1) calls = ((sampleAdd.del 1 2 .allOk).drv, .error errno)) ↔
        ¬ tbl.Lingers 1) := by
  obtain ⟨tbl, found⟩ := Option.isSome_iff_exists.mp
    (show ((sampleAdd.del 1 2 .allOk).drv.natTable 1).isSome = true by decide +kernel)
  have facts : ((sampleAdd.del 1 2 .allOk).drv.natTable 1).all (fun tbl => decide (
      1 < tbl.table.totTblEnts ∧ tbl.table.makeEntryHdl 1 ∉
        ((sampleAdd.del 1 2 .allOk).live (tblHdlMem 1)).map Prod.fst)) = true := by decide +kernel
  rw [found] at facts
  have gone : (sampleAdd.del 1 2 .allOk).Gone 1 tbl 1 := ⟨found, of_decide_eq_true facts⟩
  have reached : Reachable Start SafeStep (sampleAdd.del 1 2 .allOk) :=
    .next (.next (.start sampleStart_start) (.add 1 _ .allOk))
      (.del 1 2 .allOk rfl (by decide +kernel))
  exact ⟨tbl, gone, redelete_iff_of_reachable reached gone⟩

/-- The head of a chain of three is taken out twice: the second time the index record of another
rule goes. -/
theorem sampleRun_redeleted : (∃ tbl, sampleRun.Gone 1 tbl 1 ∧ tbl.table.makeEntryHdl 1 = 2) ∧
    (sampleRun.drv.natiDelIpv4Rule 1 2 .allOk).2 = .ok () ∧
    ((sampleRun.drv.natiDelIpv4Rule 1 2 .allOk).1.cache .ddr).map
        (fun tbl => tbl.indexTable.curExpnTblCnt) ≠
      (sampleRun.drv.cache .ddr).map fun tbl => tbl.indexTable.curExpnTblCnt := by
  refine ⟨?_, by decide +kernel⟩
  obtain ⟨tbl, found⟩ := Option.isSome_iff_exists.mp
    (show (sampleRun.drv.natTable 1).isSome = true by decide +kernel)
  have facts : (sampleRun.drv.natTable 1).all (fun tbl => decide ((1 < tbl.table.totTblEnts ∧
      tbl.table.makeEntryHdl 1 ∉ (sampleRun.live (tblHdlMem 1)).map Prod.fst) ∧
        tbl.table.makeEntryHdl 1 = 2)) = true := by decide +kernel
  rw [found, Option.all_some, decide_eq_true_eq] at facts
  exact ⟨tbl, ⟨found, facts.1⟩, facts.2⟩

end NatRun

end VendorModules.IpaNat
