import Mathlib.Order.Interval.Finset.Nat
import VendorModules.Lib.Buckets
import VendorModules.Lib.Population
import VendorModules.IpaNat.Rule

namespace VendorModules.IpaNat

open VendorModules.Lib

/-! Every operation on a table is described by what it does to three views of
the records: which slots are filled, and where their links lead. -/

structure EntryInterface.Lawful {E U : Type} (ei : EntryInterface E U) : Prop where
  blank_valid : ei.entryIsValid ei.blank = false
  blank_next : ei.entryGetNextIndex ei.blank = 0
  blank_prev : ∀ i links base, i < base →
    ei.entryGetPrevIndex ei.blank i links base = 0
  set_valid : ∀ entry i prev links base,
    ei.entryIsValid (ei.entrySetPrevIndex entry i prev links base).1 =
      ei.entryIsValid entry
  set_next : ∀ entry i prev links base,
    ei.entryGetNextIndex (ei.entrySetPrevIndex entry i prev links base).1 =
      ei.entryGetNextIndex entry
  get_set : ∀ entry i prev links base, base ≤ i →
    ei.entryGetPrevIndex (ei.entrySetPrevIndex entry i prev links base).1 i
      (ei.entrySetPrevIndex entry i prev links base).2 base = prev
  get_set_ne : ∀ entry other i j prev links base, j ≠ i →
    ei.entryGetPrevIndex other j
      (ei.entrySetPrevIndex entry i prev links base).2 base =
        ei.entryGetPrevIndex other j links base

theorem entryInterface_lawful (pdns : Pdns) : (entryInterface pdns).Lawful where
  blank_valid := rfl
  blank_next := rfl
  blank_prev := fun _ _ _ _ => rfl
  set_valid := fun _ _ _ _ _ => rfl
  set_next := fun _ _ _ _ _ => rfl
  get_set := fun _ _ _ _ _ _ => rfl
  get_set_ne := fun _ _ _ _ _ _ _ _ => rfl

theorem indexEntryInterface_lawful : indexEntryInterface.Lawful where
  blank_valid := rfl
  blank_next := rfl
  blank_prev := fun i links base inside => by
    simp [indexEntryInterface, Nat.not_le.mpr inside]
  set_valid := fun _ _ _ _ _ => rfl
  set_next := fun _ _ _ _ _ => rfl
  get_set := fun entry i prev links base outside => by
    simp [indexEntryInterface, outside]
  get_set_ne := fun entry other i j prev links base different => by
    by_cases iOutside : base ≤ i
    · by_cases jOutside : base ≤ j
      · have apart : j - base ≠ i - base := by omega
        simp [indexEntryInterface, iOutside, jOutside, apart]
      · simp [indexEntryInterface, jOutside]
    · simp [indexEntryInterface, iOutside]

namespace IpaTable

variable {E U : Type}

@[simp] theorem setEntry_geometry (table : IpaTable E) (i : Nat) (entry : E) :
    (table.setEntry i entry).geometry = table.geometry := rfl

@[simp] theorem setEntry_tableEntries (table : IpaTable E) (i : Nat) (entry : E) :
    (table.setEntry i entry).tableEntries = table.tableEntries := rfl

@[simp] theorem setEntry_totTblEnts (table : IpaTable E) (i : Nat) (entry : E) :
    (table.setEntry i entry).totTblEnts = table.totTblEnts := rfl

@[simp] theorem setEntry_nmi (table : IpaTable E) (i : Nat) (entry : E) :
    (table.setEntry i entry).nmi = table.nmi := rfl

@[simp] theorem setEntry_hasMeta (table : IpaTable E) (i : Nat) (entry : E) :
    (table.setEntry i entry).hasMeta = table.hasMeta := rfl

@[simp] theorem setEntry_metaPrev (table : IpaTable E) (i : Nat) (entry : E) :
    (table.setEntry i entry).metaPrev = table.metaPrev := rfl

@[simp] theorem setEntry_dmaHelp (table : IpaTable E) (i : Nat) (entry : E) :
    (table.setEntry i entry).dmaHelp = table.dmaHelp := rfl

@[simp] theorem setEntry_curTblCnt (table : IpaTable E) (i : Nat) (entry : E) :
    (table.setEntry i entry).curTblCnt = table.curTblCnt := rfl

@[simp] theorem setEntry_curExpnTblCnt (table : IpaTable E) (i : Nat) (entry : E) :
    (table.setEntry i entry).curExpnTblCnt = table.curExpnTblCnt := rfl

theorem setEntry_entries (table : IpaTable E) (i j : Nat) (entry : E) :
    (table.setEntry i entry).entries j =
      if j = i then entry else table.entries j :=
  Function.update_apply _ _ _ _

structure SameTable (table table' : IpaTable E) : Prop where
  geometry : table'.geometry = table.geometry
  nmi : table'.nmi = table.nmi
  hasMeta : table'.hasMeta = table.hasMeta
  dmaHelp : table'.dmaHelp = table.dmaHelp

namespace SameTable

theorem refl (table : IpaTable E) : SameTable table table := ⟨rfl, rfl, rfl, rfl⟩

theorem trans {table table' table'' : IpaTable E} (first : SameTable table table')
    (second : SameTable table' table'') : SameTable table table'' :=
  ⟨second.geometry.trans first.geometry, second.nmi.trans first.nmi,
    second.hasMeta.trans first.hasMeta, second.dmaHelp.trans first.dmaHelp⟩

variable {table table' : IpaTable E} (same : SameTable table table')
include same

theorem tableEntries : table'.tableEntries = table.tableEntries :=
  congrArg TableGeometry.tableEntries same.geometry

theorem totTblEnts : table'.totTblEnts = table.totTblEnts :=
  congrArg TableGeometry.totTblEnts same.geometry

theorem makeEntryHdl (i : Nat) : table'.makeEntryHdl i = table.makeEntryHdl i := by
  rw [IpaTable.makeEntryHdl, IpaTable.makeEntryHdl, same.tableEntries, same.nmi]

end SameTable

theorem setEntry_same (table : IpaTable E) (i : Nat) (entry : E) :
    SameTable table (table.setEntry i entry) := ⟨rfl, rfl, rfl, rfl⟩

theorem tableEntries_lt_totTblEnts (table : IpaTable E) :
    table.tableEntries < table.totTblEnts :=
  table.geometry.tableEntries_lt_totTblEnts

theorem two_le_tableEntries (table : IpaTable E) : 2 ≤ table.tableEntries :=
  table.geometry.two_le_tableEntries

theorem breakRuleHdl_makeEntryHdl (table : IpaTable E) {i : Nat}
    (inside : i < table.totTblEnts) :
    table.breakRuleHdl (table.makeEntryHdl i) = i := by
  have baseLe := table.geometry.tableEntries_le
  have expnLt := table.geometry.expnTableEntries_lt
  have total : table.totTblEnts =
    table.geometry.tableEntries + table.geometry.expnTableEntries := rfl
  have base : table.tableEntries = table.geometry.tableEntries := rfl
  have memBit : table.nmi.code < 2 := by cases table.nmi <;> decide
  unfold breakRuleHdl makeEntryHdl
  by_cases outside : table.tableEntries ≤ i
  · rw [if_pos outside, if_pos (by omega)]
    omega
  · rw [if_neg outside, if_neg (by omega)]
    omega

theorem makeEntryHdl_inj (table : IpaTable E) {i j : Nat}
    (iInside : i < table.totTblEnts) (jInside : j < table.totTblEnts)
    (same : table.makeEntryHdl i = table.makeEntryHdl j) : i = j := by
  rw [← table.breakRuleHdl_makeEntryHdl iInside, same,
    table.breakRuleHdl_makeEntryHdl jInside]

theorem getEntry_makeEntryHdl (table : IpaTable E) {i : Nat}
    (inside : i < table.totTblEnts) :
    table.getEntry (table.makeEntryHdl i) = .ok i := by
  simp [getEntry, table.breakRuleHdl_makeEntryHdl inside, inside]

theorem getEntryByIndex_eq_some (table : IpaTable E) {i : Nat} (nonzero : i ≠ 0)
    (inside : i < table.totTblEnts) :
    table.getEntryByIndex i = some (table.entries i) := by
  simp [getEntryByIndex, nonzero, inside]

section Views

variable {ei : EntryInterface E U} (lawful : ei.Lawful) (table : IpaTable E)

theorem isFilled_setEntry (i j : Nat) (entry : E) :
    (table.setEntry i entry).isFilled ei j =
      if j = i then ei.entryIsValid entry else table.isFilled ei j := by
  simp only [isFilled, setEntry_entries]
  split <;> rfl

theorem nextIndex_setEntry (i j : Nat) (entry : E) :
    (table.setEntry i entry).nextIndex ei j =
      if j = i then ei.entryGetNextIndex entry else table.nextIndex ei j := by
  simp only [nextIndex, setEntry_entries]
  split <;> rfl

theorem prevIndex_setEntry (i j : Nat) (entry : E) :
    (table.setEntry i entry).prevIndex ei j =
      if j = i then
        ei.entryGetPrevIndex entry i table.metaPrev table.tableEntries
      else table.prevIndex ei j := by
  by_cases same : j = i
  · subst same
    simp [prevIndex, setEntry_entries]
  · simp [prevIndex, setEntry_entries, same]

section

include lawful

theorem isFilled_setPrevIndex (i j prev : Nat) :
    (table.setPrevIndex ei i prev).isFilled ei j = table.isFilled ei j := by
  by_cases same : j = i
  · subst same
    simp [isFilled, setPrevIndex, setEntry, lawful.set_valid]
  · simp [isFilled, setPrevIndex, setEntry, same]

theorem nextIndex_setPrevIndex (i j prev : Nat) :
    (table.setPrevIndex ei i prev).nextIndex ei j = table.nextIndex ei j := by
  by_cases same : j = i
  · subst same
    simp [nextIndex, setPrevIndex, setEntry, lawful.set_next]
  · simp [nextIndex, setPrevIndex, setEntry, same]

theorem prevIndex_setPrevIndex {i : Nat} (outside : table.tableEntries ≤ i)
    (j prev : Nat) :
    (table.setPrevIndex ei i prev).prevIndex ei j =
      if j = i then prev else table.prevIndex ei j := by
  by_cases same : j = i
  · subst same
    simp only [prevIndex, setPrevIndex, setEntry, Function.update_self, if_true]
    exact lawful.get_set _ _ _ _ _ outside
  · simp only [prevIndex, setPrevIndex, setEntry, Function.update_of_ne same,
      if_neg same]
    exact lawful.get_set_ne _ _ _ _ _ _ _ same

end

theorem setPrevIndex_same (i prev : Nat) :
    SameTable table (table.setPrevIndex ei i prev) := ⟨rfl, rfl, rfl, rfl⟩

@[simp] theorem setPrevIndex_curTblCnt (i prev : Nat) :
    (table.setPrevIndex ei i prev).curTblCnt = table.curTblCnt := rfl

@[simp] theorem setPrevIndex_curExpnTblCnt (i prev : Nat) :
    (table.setPrevIndex ei i prev).curExpnTblCnt = table.curExpnTblCnt := rfl

theorem eraseEntry_same (i : Nat) : SameTable table (table.eraseEntry ei i) := by
  simp only [eraseEntry]
  split <;> exact ⟨rfl, rfl, rfl, rfl⟩

theorem eraseEntry_entries (i : Nat) :
    (table.eraseEntry ei i).entries =
      Function.update table.entries i ei.blank := by
  simp only [eraseEntry]
  split <;> rfl

theorem eraseEntry_metaPrev (i : Nat) :
    (table.eraseEntry ei i).metaPrev = table.metaPrev := by
  simp only [eraseEntry]
  split <;> rfl

theorem eraseEntry_curTblCnt (i : Nat) :
    (table.eraseEntry ei i).curTblCnt =
      if i < table.tableEntries then table.curTblCnt - 1 else table.curTblCnt := by
  by_cases inside : i < table.tableEntries <;> simp [eraseEntry, inside]

theorem eraseEntry_curExpnTblCnt (i : Nat) :
    (table.eraseEntry ei i).curExpnTblCnt =
      if i < table.tableEntries then table.curExpnTblCnt
      else table.curExpnTblCnt - 1 := by
  by_cases inside : i < table.tableEntries <;> simp [eraseEntry, inside]

section

include lawful

theorem isFilled_eraseEntry (i j : Nat) :
    (table.eraseEntry ei i).isFilled ei j =
      if j = i then false else table.isFilled ei j := by
  simp only [isFilled, eraseEntry_entries, Function.update_apply]
  split
  · exact lawful.blank_valid
  · rfl

theorem nextIndex_eraseEntry (i j : Nat) :
    (table.eraseEntry ei i).nextIndex ei j =
      if j = i then 0 else table.nextIndex ei j := by
  simp only [nextIndex, eraseEntry_entries, Function.update_apply]
  split
  · exact lawful.blank_next
  · rfl

theorem prevIndex_eraseEntry_base {i : Nat} (inside : i < table.tableEntries) :
    (table.eraseEntry ei i).prevIndex ei i = 0 := by
  simp only [prevIndex, eraseEntry_entries, Function.update_self]
  exact lawful.blank_prev _ _ _
    ((table.eraseEntry_same i).tableEntries ▸ inside)

end

theorem prevIndex_eraseEntry {i j : Nat} (different : j ≠ i) :
    (table.eraseEntry ei i).prevIndex ei j = table.prevIndex ei j := by
  simp only [prevIndex, eraseEntry_entries, eraseEntry_metaPrev,
    (table.eraseEntry_same i).tableEntries, Function.update_of_ne different]

end Views

end IpaTable

end VendorModules.IpaNat
