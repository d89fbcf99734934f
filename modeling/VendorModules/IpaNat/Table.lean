import Mathlib.Tactic.Ring
import Mathlib.Algebra.Order.Ring.Nat
import Mathlib.Logic.Function.Basic

namespace VendorModules.IpaNat

/-- The negative return codes of the library. A plain `-1` is `eperm`. -/
inductive Errno
  | eperm
  | eio
  | enomem
  | einval
  deriving DecidableEq, Repr

/-- `enum ipa3_nat_mem_in`. -/
inductive MemIn
  | ddr
  | sram
  deriving DecidableEq, Repr

def MemIn.code : MemIn → Nat
  | .ddr => 0
  | .sram => 1

def MemIn.other : MemIn → MemIn
  | .ddr => .sram
  | .sram => .ddr

theorem MemIn.other_ne (mem : MemIn) : mem.other ≠ mem := by
  cases mem <;> simp [MemIn.other]

def tableMaxEntries : Nat := 5120

/-! ### Table dimensions -/

def get2PowerLoop : Nat → Nat → Nat → Nat → Nat × Nat
  | 0, _, prev, curr => (prev, curr)
  | fuel + 1, tmp, prev, curr =>
    if tmp = 1 then (prev, curr)
    else get2PowerLoop fuel (tmp / 2) curr (curr * 2)

def get2PowerTightUpperBound (num : Nat) : Nat :=
  if num = 0 then 2
  else
    let (prev, curr) := get2PowerLoop num num 0 2
    if num = prev then prev else curr

def getEvenTightUpperBound (num : Nat) : Nat :=
  if num = 0 then 2 else if num % 2 ≠ 0 then num + 1 else num

private theorem get2PowerLoop_eq (fuel : Nat) :
    ∀ tmp prev curr, 0 < tmp → tmp ≤ fuel →
      ∃ k, 2 ^ k ≤ tmp ∧ tmp < 2 ^ (k + 1) ∧
        get2PowerLoop fuel tmp prev curr =
          (if k = 0 then prev else curr * 2 ^ (k - 1), curr * 2 ^ k) := by
  induction fuel with
  | zero => intro tmp prev curr positive bound; omega
  | succ fuel induction =>
    intro tmp prev curr positive bound
    by_cases one : tmp = 1
    · exact ⟨0, by simp [one], by simp [one], by simp [get2PowerLoop, one]⟩
    · obtain ⟨k, lower, upper, result⟩ :=
        induction (tmp / 2) curr (curr * 2) (by omega) (by omega)
      refine ⟨k + 1, by rw [pow_succ]; omega, by rw [pow_succ]; omega, ?_⟩
      rw [get2PowerLoop, if_neg one, result]
      by_cases zero : k = 0
      · simp [zero]
      · obtain ⟨j, rfl⟩ : ∃ j, k = j + 1 := ⟨k - 1, by omega⟩
        simp only [Nat.add_eq_zero_iff, one_ne_zero, and_false, if_false,
          Nat.add_sub_cancel, Prod.mk.injEq]
        constructor <;> ring

theorem get2PowerTightUpperBound_power (num : Nat) :
    ∃ k, get2PowerTightUpperBound num = 2 ^ (k + 1) := by
  by_cases zero : num = 0
  · exact ⟨0, by simp [get2PowerTightUpperBound, zero]⟩
  · obtain ⟨k, -, -, result⟩ :=
      get2PowerLoop_eq num num 0 2 (Nat.pos_of_ne_zero zero) le_rfl
    simp only [get2PowerTightUpperBound, zero, if_false, result]
    by_cases tight : num = if k = 0 then 0 else 2 * 2 ^ (k - 1)
    · by_cases small : k = 0
      · exact absurd (by simpa [small] using tight) zero
      · obtain ⟨j, rfl⟩ : ∃ j, k = j + 1 := ⟨k - 1, by omega⟩
        rw [if_pos tight]
        exact ⟨j, by simp [pow_succ]; ring⟩
    · rw [if_neg tight]
      exact ⟨k, by ring⟩

theorem le_get2PowerTightUpperBound (num : Nat) :
    num ≤ get2PowerTightUpperBound num := by
  by_cases zero : num = 0
  · simp [zero]
  · obtain ⟨k, -, upper, result⟩ :=
      get2PowerLoop_eq num num 0 2 (Nat.pos_of_ne_zero zero) le_rfl
    simp only [get2PowerTightUpperBound, zero, if_false, result]
    by_cases tight : num = if k = 0 then 0 else 2 * 2 ^ (k - 1)
    · rw [if_pos tight]
      exact tight.le
    · rw [if_neg tight, mul_comm]
      exact (pow_succ 2 k ▸ upper).le

theorem get2PowerTightUpperBound_le {num j : Nat} (below : num ≤ 2 ^ (j + 1)) :
    get2PowerTightUpperBound num ≤ 2 ^ (j + 1) := by
  have two : 2 ≤ 2 ^ (j + 1) := by
    rw [pow_succ]
    have := Nat.two_pow_pos j
    omega
  by_cases zero : num = 0
  · rw [get2PowerTightUpperBound, if_pos zero]
    exact two
  · obtain ⟨k, lower, -, result⟩ :=
      get2PowerLoop_eq num num 0 2 (Nat.pos_of_ne_zero zero) le_rfl
    rw [get2PowerTightUpperBound, if_neg zero, result]
    dsimp only
    by_cases first : k = 0
    · rw [if_pos first, if_neg zero, first]
      exact two
    · obtain ⟨i, rfl⟩ : ∃ i, k = i + 1 := ⟨k - 1, by omega⟩
      have half : 2 * 2 ^ (i + 1 - 1) = 2 ^ (i + 1) := by
        rw [Nat.add_sub_cancel, pow_succ, mul_comm]
      rw [if_neg first, half]
      by_cases tight : num = 2 ^ (i + 1)
      · rw [if_pos tight, ← tight]
        exact below
      · have more : i + 1 < j + 1 := (Nat.pow_lt_pow_iff_right one_lt_two).mp (by omega)
        rw [if_neg tight, mul_comm, ← pow_succ]
        exact Nat.pow_le_pow_right Nat.two_pos more

theorem get2PowerTightUpperBound_mono {num num' : Nat} (le : num ≤ num') :
    get2PowerTightUpperBound num ≤ get2PowerTightUpperBound num' := by
  obtain ⟨j, power⟩ := get2PowerTightUpperBound_power num'
  have below := le.trans (le_get2PowerTightUpperBound num')
  rw [power] at below ⊢
  exact get2PowerTightUpperBound_le below

theorem getEvenTightUpperBound_mono {num num' : Nat} (le : num ≤ num') :
    getEvenTightUpperBound num ≤ getEvenTightUpperBound num' := by
  unfold getEvenTightUpperBound
  split_ifs <;> omega

theorem getEvenTightUpperBound_pos (num : Nat) :
    0 < getEvenTightUpperBound num := by
  unfold getEvenTightUpperBound
  split <;> [simp; split <;> omega]

structure TableGeometry where
  tableEntries : Nat
  expnTableEntries : Nat
  power : ∃ k, tableEntries = 2 ^ (k + 1)
  expnPos : 0 < expnTableEntries
  expnLe : expnTableEntries ≤ tableEntries
  totLe : tableEntries + expnTableEntries ≤ tableMaxEntries

/-- The products of the requested size with the base and the expansion
percentage, truncated to integers; the base percentage is the larger one. -/
structure EntryShares where
  base : Nat
  expn : Nat
  expnLe : expn ≤ base

theorem getEven_le_get2Power (shares : EntryShares) :
    getEvenTightUpperBound shares.expn ≤
      get2PowerTightUpperBound shares.base := by
  obtain ⟨k, power⟩ := get2PowerTightUpperBound_power shares.base
  have lower := le_get2PowerTightUpperBound shares.base
  have ordered := shares.expnLe
  have half : 0 < 2 ^ k := Nat.two_pow_pos k
  rw [pow_succ] at power
  unfold getEvenTightUpperBound
  split
  · omega
  · split <;> omega

def calculateEntriesNum (numberOfEntries : Nat) (shares : EntryShares) :
    Except Errno TableGeometry :=
  if numberOfEntries > tableMaxEntries then .error .einval
  else if fits : get2PowerTightUpperBound shares.base +
      getEvenTightUpperBound shares.expn ≤ tableMaxEntries then
    .ok
      { tableEntries := get2PowerTightUpperBound shares.base
        expnTableEntries := getEvenTightUpperBound shares.expn
        power := get2PowerTightUpperBound_power shares.base
        expnPos := getEvenTightUpperBound_pos shares.expn
        expnLe := getEven_le_get2Power shares
        totLe := fits }
  else .error .einval

namespace TableGeometry

variable (geometry : TableGeometry)

def totTblEnts : Nat := geometry.tableEntries + geometry.expnTableEntries

theorem two_le_tableEntries : 2 ≤ geometry.tableEntries := by
  obtain ⟨k, power⟩ := geometry.power
  have half : 0 < 2 ^ k := Nat.two_pow_pos k
  rw [power, pow_succ]
  omega

theorem tableEntries_lt_totTblEnts :
    geometry.tableEntries < geometry.totTblEnts :=
  Nat.lt_add_of_pos_right geometry.expnPos

theorem tableEntries_le : geometry.tableEntries ≤ 4096 := by
  obtain ⟨k, power⟩ := geometry.power
  have bound := geometry.totLe
  have exponent : k + 1 < 13 := by
    by_contra large
    have grown : 2 ^ 13 ≤ 2 ^ (k + 1) :=
      Nat.pow_le_pow_right (by decide) (by omega)
    rw [power, tableMaxEntries] at bound
    omega
  rw [power]
  exact (Nat.pow_le_pow_right (by decide) (by omega : k + 1 ≤ 12)).trans
    (by decide)

theorem expnTableEntries_lt : geometry.expnTableEntries < 4096 := by
  have ordered := geometry.expnLe
  have bound := geometry.totLe
  rw [tableMaxEntries] at bound
  omega

end TableGeometry

end VendorModules.IpaNat

namespace VendorModules.IpaNat

/-! The hash tables of `ipa_table.c`: a base part addressed by hash and an
expansion part for collisions, generic in the record through the table's entry
interface. Index zero is never used and terminates every chain. -/

/-- `ipa_table_dma_type`: which part of which table a command addresses. -/
inductive DmaTableType
  | natBaseTbl
  | natExpnTbl
  | natIndxTbl
  | natIndexExpnTbl
  deriving DecidableEq, Repr

/-- `ipa_nat_table_dma_cmd_type`: the record field a command writes. -/
inductive DmaField
  | tableFlags
  | tableNextIndex
  | tableProtocol
  | indexTableEntry
  | indexTableNextIndex
  deriving DecidableEq, Repr

inductive DmaHelpType
  | updateHead
  | updateEntry
  | deleteHead
  deriving DecidableEq, Repr

/-- `ipa_table_dma_cmd_helper`. -/
structure DmaCmdHelper where
  field : DmaField
  tableType : DmaTableType
  expnTableType : DmaTableType

/-- `struct ipa_ioc_nat_dma_one`, with its offset split into the record inside
the addressed part and the field inside the record. -/
structure DmaOne where
  baseAddr : DmaTableType
  record : Nat
  field : DmaField
  data : Nat
  deriving DecidableEq, Repr

abbrev DmaCmd := List DmaOne

/-- `ipa_table_entry_interface`, together with the record that `memset`
leaves behind. -/
structure EntryInterface (E U : Type) where
  blank : E
  entryIsValid : E → Bool
  entryGetNextIndex : E → Nat
  entryGetPrevIndex : E → Nat → (Nat → Nat) → Nat → Nat
  entrySetPrevIndex : E → Nat → Nat → (Nat → Nat) → Nat → E × (Nat → Nat)
  entryHeadInsert : E → U → E × Nat
  entryTailInsert : E → U → E
  entryGetDeleteHeadDmaCommandData : E → E → Nat

/-- `hasMeta` says whether the `meta` pointer is set, which only the index table does;
`metaPrev` is what it points to. -/
structure IpaTable (E : Type) where
  nmi : MemIn
  geometry : TableGeometry
  entries : Nat → E
  curTblCnt : Nat
  curExpnTblCnt : Nat
  hasMeta : Bool
  metaPrev : Nat → Nat
  dmaHelp : DmaHelpType → DmaCmdHelper

structure TableIterator where
  prevIndex : Nat
  currIndex : Nat
  nextIndex : Nat

inductive When2Callback
  | slotEmpty
  | slotFilled
  deriving DecidableEq

namespace IpaTable

variable {E U : Type}

def tableEntries (table : IpaTable E) : Nat := table.geometry.tableEntries

def totTblEnts (table : IpaTable E) : Nat := table.geometry.totTblEnts

section Access

variable (ei : EntryInterface E U) (table : IpaTable E)

def isFilled (index : Nat) : Bool := ei.entryIsValid (table.entries index)

def nextIndex (index : Nat) : Nat := ei.entryGetNextIndex (table.entries index)

def prevIndex (index : Nat) : Nat :=
  ei.entryGetPrevIndex (table.entries index) index table.metaPrev
    table.tableEntries

def setEntry (index : Nat) (entry : E) : IpaTable E :=
  { table with entries := Function.update table.entries index entry }

def setPrevIndex (index prev : Nat) : IpaTable E :=
  let (entry, metaPrev) := ei.entrySetPrevIndex (table.entries index) index prev
    table.metaPrev table.tableEntries
  { table.setEntry index entry with metaPrev := metaPrev }

end Access

/-- `ipa_table_reset`. -/
def reset (ei : EntryInterface E U) (table : IpaTable E) : IpaTable E :=
  { table with
    entries := fun index =>
      if index < table.totTblEnts then ei.blank else table.entries index }

def makeEntryHdl (table : IpaTable E) (tblEntry : Nat) : Nat :=
  (if tblEntry ≥ table.tableEntries then (tblEntry - table.tableEntries) * 2 + 1
    else tblEntry * 2) + table.nmi.code * 32768

def breakRuleHdl (table : IpaTable E) (hdl : Nat) : Nat :=
  hdl / 2 % 4096 + if hdl % 2 = 1 then table.tableEntries else 0

/-- `ipa_table_get_entry`, which returns the index of the record. -/
def getEntry (table : IpaTable E) (entryHandle : Nat) : Except Errno Nat :=
  let recIndex := table.breakRuleHdl entryHandle
  if recIndex ≥ table.totTblEnts then .error .einval else .ok recIndex

/-- `ipa_table_get_entry_by_index`: is there a record at this index? -/
def getEntryByIndex (table : IpaTable E) (recIndex : Nat) : Option E :=
  if recIndex = 0 ∨ recIndex ≥ table.totTblEnts then none
  else some (table.entries recIndex)

/-! ### DMA commands -/

def dmaCmdGenerate (helper : DmaCmdHelper) (isExpn : Bool)
    (record data : Nat) (cmd : DmaCmd) : DmaCmd :=
  cmd ++
    [{ baseAddr := if isExpn then helper.expnTableType else helper.tableType
       record := record
       field := helper.field
       data := data }]

/-- `ipa_table_add_dma_cmd`. Its return code is ignored by every caller. -/
def addDmaCmd (table : IpaTable E) (helpType : DmaHelpType)
    (recIndex data : Nat) (cmd : DmaCmd) : DmaCmd :=
  if recIndex ≥ table.totTblEnts then cmd
  else if recIndex ≥ table.tableEntries then
    dmaCmdGenerate (table.dmaHelp helpType) true
      (recIndex - table.tableEntries) data cmd
  else dmaCmdGenerate (table.dmaHelp helpType) false recIndex data cmd

/-! ### Walking a table -/

section Walk

variable {σ ρ : Type} (ei : EntryInterface E U) (getTable : σ → IpaTable E)
  (when2cb : When2Callback) (walkCb : σ → Nat → Nat → σ × Option ρ)

def walkFrom : Nat → Nat → σ → σ × Option ρ
  | 0, _, state => (state, none)
  | remaining + 1, index, state =>
    if (getTable state).isFilled ei index = decide (when2cb = .slotFilled) then
      match walkCb state ((getTable state).makeEntryHdl index) index with
      | (state, some ret) => (state, some ret)
      | (state, none) => walkFrom remaining (index + 1) state
    else walkFrom remaining (index + 1) state

/-- `ipa_table_walk`. The callback returns `none` to go on and a non-zero value to stop; the
table may be part of the state it changes. -/
def walk (startIndex : Nat) (state : σ) : σ × Except Errno (Option ρ) :=
  if startIndex ≥ (getTable state).totTblEnts then (state, .error .einval)
  else
    let (state, ret) := walkFrom ei getTable when2cb walkCb
      ((getTable state).totTblEnts - startIndex) startIndex state
    (state, .ok ret)

end Walk

/-! ### Iterators -/

section Iterator

variable (ei : EntryInterface E U) (table : IpaTable E)

/-- `ipa_table_iterator_init`. -/
def iteratorInit (currIndex : Nat) : Except Errno TableIterator :=
  if !table.isFilled ei currIndex then .error .einval
  else
    let prevIndex := table.prevIndex ei currIndex
    let nextIndex := table.nextIndex ei currIndex
    if prevIndex ≠ 0 ∧ table.getEntryByIndex prevIndex = none then .error .eperm
    else if nextIndex ≠ 0 ∧ table.getEntryByIndex nextIndex = none then
      .error .eperm
    else .ok { prevIndex, currIndex, nextIndex }

/-- `ipa_table_iterator_next`. -/
def iteratorNext (iterator : TableIterator) : Except Errno TableIterator :=
  let nextIndex := table.nextIndex ei iterator.nextIndex
  if nextIndex ≠ 0 ∧ table.getEntryByIndex nextIndex = none then .error .eperm
  else
    .ok
      { prevIndex := iterator.currIndex
        currIndex := iterator.nextIndex
        nextIndex := nextIndex }

/-- The loop of `ipa_table_iterator_end`, which has no bound of its own. The
fuel stands for the length of the chain. -/
def iteratorEndLoop : Nat → Nat → Except Errno Nat
  | 0, _ => .error .eperm
  | fuel + 1, prevIndex =>
    let nextIndex := table.nextIndex ei prevIndex
    if nextIndex = 0 then .ok prevIndex
    else if nextIndex = prevIndex then .error .eperm
    else iteratorEndLoop fuel nextIndex

/-- `ipa_table_iterator_end`: the last record of the chain at `recIndex`. -/
def iteratorEnd (recIndex : Nat) : Except Errno Nat :=
  iteratorEndLoop ei table (table.totTblEnts + 1) recIndex

end Iterator

end IpaTable

/-- `ipa_table_iterator_is_head_with_tail`. -/
def TableIterator.isHeadWithTail (iterator : TableIterator) : Bool :=
  decide (iterator.nextIndex ≠ 0 ∧ iterator.prevIndex = 0)

namespace IpaTable

variable {E U : Type}

/-! ### Insertion -/

def mtSlot (table : IpaTable E) (_ruleHdl recordIndex : Nat) :
    IpaTable E × Option Nat :=
  (table, if recordIndex = 0 then none else some recordIndex)

def findExpnTblFreeEntry (ei : EntryInterface E U) (table : IpaTable E) :
    Except Errno Nat :=
  match (walk ei (fun table => table) .slotEmpty mtSlot
      table.tableEntries table).2 with
  | .ok (some index) => .ok index
  | _ => .error .eperm

def insertHead (ei : EntryInterface E U) (table : IpaTable E) (recIndex : Nat)
    (userData : U) (cmd : DmaCmd) : IpaTable E × DmaCmd :=
  let (entry, enableData) := ei.entryHeadInsert (table.entries recIndex) userData
  let table := table.setEntry recIndex entry
  ({ table with curTblCnt := table.curTblCnt + 1 },
    table.addDmaCmd .updateHead recIndex enableData cmd)

/-- `InsertTail`, which also returns the index of the new record. -/
def insertTail (ei : EntryInterface E U) (table : IpaTable E) (recIndex : Nat)
    (userData : U) (cmd : DmaCmd) :
    Except Errno (IpaTable E × Nat × DmaCmd) := do
  let prevIndex ← table.iteratorEnd ei recIndex
  let currIndex ← table.findExpnTblFreeEntry ei
  let entry := table.entries currIndex
  -- the index table is recognised by its meta data and needs no enable bit
  let (entry, enableData) :=
    if table.hasMeta then (ei.entryTailInsert entry userData, 0)
    else ei.entryHeadInsert entry userData
  let table := (table.setEntry currIndex entry).setPrevIndex ei currIndex prevIndex
  let cmd :=
    if table.hasMeta then cmd
    else table.addDmaCmd .updateHead currIndex enableData cmd
  let cmd := table.addDmaCmd .updateEntry prevIndex currIndex cmd
  return ({ table with curExpnTblCnt := table.curExpnTblCnt + 1 }, currIndex, cmd)

/-- `ipa_table_add_entry`: the new table, the record's index and the commands. -/
def addEntry (ei : EntryInterface E U) (table : IpaTable E) (userData : U)
    (recIndex : Nat) (cmd : DmaCmd) :
    Except Errno (IpaTable E × Nat × DmaCmd) :=
  if !table.isFilled ei recIndex then
    let (table, cmd) := table.insertHead ei recIndex userData cmd
    .ok (table, recIndex, cmd)
  else table.insertTail ei recIndex userData cmd

/-! ### Deletion -/

/-- `ipa_table_create_delete_command`. -/
def createDeleteCommand (ei : EntryInterface E U) (table : IpaTable E)
    (cmd : DmaCmd) (iterator : TableIterator) : DmaCmd :=
  if iterator.prevIndex = 0 then
    if iterator.nextIndex ≠ 0 then
      table.addDmaCmd .deleteHead iterator.currIndex
        (ei.entryGetDeleteHeadDmaCommandData
          (table.entries iterator.currIndex) (table.entries iterator.nextIndex))
        cmd
    else table.addDmaCmd .updateHead iterator.currIndex 0 cmd
  else table.addDmaCmd .updateEntry iterator.prevIndex iterator.nextIndex cmd

/-- `ipa_table_erase_entry`. -/
def eraseEntry (ei : EntryInterface E U) (table : IpaTable E) (index : Nat) :
    IpaTable E :=
  let table := table.setEntry index ei.blank
  if index < table.tableEntries then
    { table with curTblCnt := table.curTblCnt - 1 }
  else { table with curExpnTblCnt := table.curExpnTblCnt - 1 }

/-- `ipa_table_delete_entry`. -/
def deleteEntry (ei : EntryInterface E U) (table : IpaTable E)
    (iterator : TableIterator) (isPrevEmpty : Bool) : IpaTable E :=
  let table :=
    if iterator.nextIndex ≠ 0 then
      table.setPrevIndex ei iterator.nextIndex iterator.prevIndex
    else if isPrevEmpty && iterator.prevIndex ≠ 0 then
      { table.setEntry iterator.prevIndex ei.blank with
        curTblCnt := table.curTblCnt - 1 }
    else table
  table.eraseEntry ei iterator.currIndex

end IpaTable

end VendorModules.IpaNat
