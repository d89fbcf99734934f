import VendorModules.IpaNat.TableShape

namespace VendorModules.IpaNat

namespace IpaTable

variable {E U : Type} {ei : EntryInterface E U} {table : IpaTable E}

/-! ### Finding a free expansion record -/

private theorem walkFrom_mtSlot (ei : EntryInterface E U) (table : IpaTable E)
    (count : Nat) :
    ∀ start, 0 < start →
      match (walkFrom ei (fun table => table) .slotEmpty mtSlot count start
          table).2 with
      | some i => start ≤ i ∧ i < start + count ∧ table.isFilled ei i = false
      | none => ∀ i, start ≤ i → i < start + count →
          table.isFilled ei i = true := by
  induction count with
  | zero =>
    intro start positive i lower upper
    omega
  | succ count induction =>
    intro start positive
    have rest := induction (start + 1) (Nat.succ_pos start)
    cases filled : table.isFilled ei start with
    | false =>
      have nonzero : start ≠ 0 := Nat.pos_iff_ne_zero.mp positive
      simp [walkFrom, mtSlot, filled, nonzero]
    | true =>
      simp only [walkFrom, filled, decide_false, reduceCtorEq,
        Bool.true_eq_false, if_false]
      split at rest
      · obtain ⟨lower, upper, free⟩ := rest
        exact ⟨by omega, by omega, free⟩
      · intro i lower upper
        rcases Nat.eq_or_lt_of_le lower with rfl | later
        · exact filled
        · exact rest i later (by omega)

theorem findExpnTblFreeEntry_ok {e : Nat}
    (found : table.findExpnTblFreeEntry ei = .ok e) :
    table.tableEntries ≤ e ∧ e < table.totTblEnts ∧
      table.isFilled ei e = false := by
  have positive : 0 < table.tableEntries :=
    Nat.lt_of_lt_of_le Nat.zero_lt_two table.two_le_tableEntries
  have outside := table.tableEntries_lt_totTblEnts
  have spec := walkFrom_mtSlot ei table
    (table.totTblEnts - table.tableEntries) table.tableEntries positive
  simp only [findExpnTblFreeEntry, walk, if_neg (Nat.not_le.mpr outside)] at found
  split at found
  · next index search =>
      simp only [Except.ok.injEq] at search found
      subst found
      rw [search] at spec
      exact ⟨spec.1, by omega, spec.2.2⟩
  · cases found

theorem findExpnTblFreeEntry_error {errno : Errno}
    (failed : table.findExpnTblFreeEntry ei = .error errno) {i : Nat}
    (lower : table.tableEntries ≤ i) (upper : i < table.totTblEnts) :
    table.isFilled ei i = true := by
  have positive : 0 < table.tableEntries :=
    Nat.lt_of_lt_of_le Nat.zero_lt_two table.two_le_tableEntries
  have outside := table.tableEntries_lt_totTblEnts
  have spec := walkFrom_mtSlot ei table
    (table.totTblEnts - table.tableEntries) table.tableEntries positive
  simp only [findExpnTblFreeEntry, walk, if_neg (Nat.not_le.mpr outside)] at failed
  split at failed
  · cases failed
  · next missing =>
      split at spec
      · next index search => exact absurd (by rw [search]) (missing index)
      · exact spec i lower (by omega)

/-! ### Commands -/

theorem addDmaCmd_same {table' : IpaTable E} (same : SameTable table table')
    (helpType : DmaHelpType) (i data : Nat) (cmd : DmaCmd) :
    table'.addDmaCmd helpType i data cmd = table.addDmaCmd helpType i data cmd := by
  rw [addDmaCmd, addDmaCmd, same.totTblEnts, same.tableEntries, same.dmaHelp]

/-! ### Adding a record -/

/-- The record `ipa_table_add_entry` puts at slot `i`, before any DMA. -/
def newEntry (ei : EntryInterface E U) (table : IpaTable E) (userData : U)
    (i : Nat) : E :=
  if table.hasMeta then ei.entryTailInsert (table.entries i) userData
  else (ei.entryHeadInsert (table.entries i) userData).1

theorem addEntry_cases {userData : U} {b e : Nat} {cmd cmd' : DmaCmd}
    {table' : IpaTable E}
    (added : table.addEntry ei userData b cmd = .ok (table', e, cmd')) :
    (table.isFilled ei b = false ∧ e = b ∧
      table' =
        { table.setEntry b (ei.entryHeadInsert (table.entries b) userData).1 with
          curTblCnt := table.curTblCnt + 1 } ∧
      cmd' = table.addDmaCmd .updateHead b
        (ei.entryHeadInsert (table.entries b) userData).2 cmd) ∨
    (table.isFilled ei b = true ∧
      ∃ last, table.iteratorEnd ei b = .ok last ∧
        table.findExpnTblFreeEntry ei = .ok e ∧
        table' =
          { (table.setEntry e (table.newEntry ei userData e)).setPrevIndex ei e
              last with
            curExpnTblCnt := table.curExpnTblCnt + 1 } ∧
        cmd' = table.addDmaCmd .updateEntry last e
          (if table.hasMeta then cmd
            else table.addDmaCmd .updateHead e
              (ei.entryHeadInsert (table.entries e) userData).2 cmd)) := by
  cases filled : table.isFilled ei b with
  | false =>
    simp only [addEntry, filled, Bool.not_false, if_true, insertHead,
      Except.ok.injEq, Prod.mk.injEq] at added
    obtain ⟨rfl, rfl, rfl⟩ := added
    exact Or.inl ⟨rfl, rfl, rfl, addDmaCmd_same ⟨rfl, rfl, rfl, rfl⟩ _ _ _ _⟩
  | true =>
    right
    refine ⟨rfl, ?_⟩
    simp only [addEntry, filled, Bool.not_true, Bool.false_eq_true, if_false,
      insertTail, bind, Except.bind, pure, Except.pure] at added
    cases walked : table.iteratorEnd ei b with
    | error errno => simp [walked] at added
    | ok last =>
      cases free : table.findExpnTblFreeEntry ei with
      | error errno => simp [walked, free] at added
      | ok currIndex =>
        simp only [walked, free, Except.ok.injEq, Prod.mk.injEq] at added
        obtain ⟨rfl, rfl, rfl⟩ := added
        refine ⟨last, rfl, rfl, ?_, ?_⟩
        · by_cases index : table.hasMeta <;>
            simp [newEntry, index, setPrevIndex]
        · refine (addDmaCmd_same ⟨rfl, rfl, rfl, rfl⟩ _ _ _ _).trans
            (congrArg (table.addDmaCmd .updateEntry last currIndex) ?_)
          by_cases index : table.hasMeta = true
          · exact (if_pos index).trans (if_pos index).symm
          · refine (if_neg index).trans (Eq.trans ?_ (if_neg index).symm)
            rw [if_neg index]
            exact addDmaCmd_same ⟨rfl, rfl, rfl, rfl⟩ _ _ _ _

theorem addEntry_error {userData : U} {b : Nat} {cmd : DmaCmd} {errno : Errno}
    (failed : table.addEntry ei userData b cmd = .error errno) :
    table.isFilled ei b = true ∧
      ((∃ errno, table.iteratorEnd ei b = .error errno) ∨
        ∃ errno, table.findExpnTblFreeEntry ei = .error errno) := by
  cases filled : table.isFilled ei b with
  | false => simp [addEntry, filled] at failed
  | true =>
    refine ⟨rfl, ?_⟩
    simp only [addEntry, filled, Bool.not_true, Bool.false_eq_true, if_false,
      insertTail, bind, Except.bind] at failed
    cases walked : table.iteratorEnd ei b with
    | error errno => exact Or.inl ⟨errno, rfl⟩
    | ok last =>
      cases free : table.findExpnTblFreeEntry ei with
      | error errno => exact Or.inr ⟨errno, rfl⟩
      | ok currIndex => simp [walked, free, pure, Except.pure] at failed

/-- `table'` is `table` with the free record `e` claimed and set to `entry`. -/
structure Placed (ei : EntryInterface E U) (table table' : IpaTable E) (e : Nat)
    (entry : E) : Prop where
  same : SameTable table table'
  entries : ∀ i, table'.entries i = if i = e then entry else table.entries i
  prev : ∀ i, i ≠ e → table'.prevIndex ei i = table.prevIndex ei i
  tblCnt : table'.curTblCnt =
    table.curTblCnt + if e < table.tableEntries then 1 else 0
  expnCnt : table'.curExpnTblCnt =
    table.curExpnTblCnt + if e < table.tableEntries then 0 else 1

/-- `table'` is `table` but for records that are free in both. -/
structure Kept (ei : EntryInterface E U) (table table' : IpaTable E) : Prop where
  same : SameTable table table'
  entries : ∀ i, table'.entries i = table.entries i ∨
    table.isFilled ei i = false ∧ table'.entries i = ei.blank
  prev : ∀ i, table.Busy ei i ∨ i < table.tableEntries →
    table'.prevIndex ei i = table.prevIndex ei i
  tblCnt : table'.curTblCnt = table.curTblCnt
  expnCnt : table'.curExpnTblCnt = table.curExpnTblCnt

theorem Kept.refl (ei : EntryInterface E U) (table : IpaTable E) :
    Kept ei table table :=
  ⟨SameTable.refl table, fun _ => Or.inl rfl, fun _ _ => rfl, rfl, rfl⟩

theorem Kept.shaped {table' : IpaTable E} {chain : Nat → List Nat}
    (kept : Kept ei table table') (lawful : ei.Lawful)
    (shaped : table.Shaped ei chain) : table'.Shaped ei chain := by
  apply shaped.congr kept.same
  · intro i _
    rcases kept.entries i with equal | ⟨free, blank⟩
    · rw [isFilled, isFilled, equal]
    · rw [free, isFilled, blank, lawful.blank_valid]
  · intro i inside
    rcases kept.entries i with equal | ⟨free, blank⟩
    · rw [nextIndex, nextIndex, equal]
    · rw [(shaped.vacant i inside free).1, nextIndex, blank, lawful.blank_next]
  · exact kept.prev
  · exact kept.tblCnt
  · exact kept.expnCnt

namespace Placed

variable {table' : IpaTable E} {e : Nat} {entry : E}

theorem set (placed : Placed ei table table' e entry) (entry' : E) :
    Placed ei table (table'.setEntry e entry') e entry' where
  same := placed.same.trans ⟨rfl, rfl, rfl, rfl⟩
  entries := by
    intro i
    rw [setEntry_entries, placed.entries]
    split <;> rfl
  prev := by
    intro i different
    rw [prevIndex_setEntry, if_neg different, placed.prev i different]
  tblCnt := placed.tblCnt
  expnCnt := placed.expnCnt

theorem erase {chain : Nat → List Nat}
    (placed : Placed ei table table' e entry) (lawful : ei.Lawful)
    (shaped : table.Shaped ei chain) (inside : e < table.totTblEnts)
    (free : table.isFilled ei e = false) :
    Kept ei table (table'.eraseEntry ei e) where
  same := placed.same.trans (table'.eraseEntry_same e)
  entries := by
    intro i
    rw [eraseEntry_entries, Function.update_apply, placed.entries]
    by_cases same : i = e
    · subst same
      exact Or.inr ⟨free, if_pos rfl⟩
    · rw [if_neg same, if_neg same]
      exact Or.inl rfl
  prev := by
    intro i used
    by_cases same : i = e
    · subst same
      have base : i < table.tableEntries := by
        refine used.resolve_left fun busy => ?_
        rw [busy.2] at free
        cases free
      rw [prevIndex_eraseEntry_base lawful _ (placed.same.tableEntries ▸ base),
        (shaped.vacant i inside free).2 base]
    · rw [table'.prevIndex_eraseEntry same, placed.prev i same]
  tblCnt := by
    rw [eraseEntry_curTblCnt, placed.same.tableEntries, placed.tblCnt]
    split <;> simp
  expnCnt := by
    rw [eraseEntry_curExpnTblCnt, placed.same.tableEntries, placed.expnCnt]
    split <;> simp

end Placed

theorem addEntry_placed (lawful : ei.Lawful) {userData : U} {b e : Nat}
    {cmd cmd' : DmaCmd} {table' : IpaTable E} (inside : b < table.tableEntries)
    (added : table.addEntry ei userData b cmd = .ok (table', e, cmd')) :
    Placed ei table table' e (table'.entries e) ∧ e < table.totTblEnts ∧
      table.isFilled ei e = false ∧
      (table.isFilled ei b = false → e = b) ∧
      (table.isFilled ei b = true → table.tableEntries ≤ e) := by
  rcases addEntry_cases added with
    ⟨free, rfl, rfl, -⟩ | ⟨filled, last, -, found, rfl, -⟩
  · refine ⟨⟨⟨rfl, rfl, rfl, rfl⟩, fun i => ?_, fun i different => ?_, ?_, ?_⟩,
      inside.trans table.tableEntries_lt_totTblEnts, free, fun _ => rfl,
      fun filled => ?_⟩
    · by_cases same : i = e
      · rw [if_pos same, same]
      · rw [if_neg same]
        exact (setEntry_entries _ _ _ _).trans (if_neg same)
    · exact (prevIndex_setEntry _ _ _ _).trans (if_neg different)
    · rw [if_pos inside]
    · rw [if_pos inside]
      rfl
    · rw [filled] at free
      cases free
  · obtain ⟨lower, upper, free⟩ := findExpnTblFreeEntry_ok found
    refine ⟨⟨⟨rfl, rfl, rfl, rfl⟩, fun i => ?_, fun i different => ?_, ?_, ?_⟩,
      upper, free, fun vacant => ?_, fun _ => lower⟩
    · by_cases same : i = e
      · rw [if_pos same, same]
      · rw [if_neg same]
        refine (setEntry_entries _ _ _ _).trans ?_
        rw [if_neg same, setEntry_entries, if_neg same]
    · refine (prevIndex_setPrevIndex lawful
        (table.setEntry e (table.newEntry ei userData e)) lower i last).trans ?_
      rw [if_neg different, prevIndex_setEntry, if_neg different]
    · rw [if_neg (Nat.not_lt.mpr lower)]
      rfl
    · rw [if_neg (Nat.not_lt.mpr lower)]
    · rw [vacant] at filled
      cases filled

/-- `e` is a free record that the bucket `b` can be extended with. -/
structure Claimable (ei : EntryInterface E U) (table : IpaTable E)
    (chain : Nat → List Nat) (b e : Nat) : Prop where
  nonzero : e ≠ 0
  inside : e < table.totTblEnts
  free : table.isFilled ei e = false
  first : chain b = [] → e = b
  overflow : chain b ≠ [] → table.tableEntries ≤ e

theorem addEntry_claimable (lawful : ei.Lawful) {userData : U} {b e : Nat}
    {cmd cmd' : DmaCmd} {table' : IpaTable E} {chain : Nat → List Nat}
    (shaped : table.Shaped ei chain) (positive : 0 < b)
    (inside : b < table.tableEntries)
    (added : table.addEntry ei userData b cmd = .ok (table', e, cmd')) :
    table.Claimable ei chain b e := by
  obtain ⟨-, eInside, free, head, overflow⟩ :=
    addEntry_placed lawful inside added
  have filledIff := shaped.filled_base_iff inside
  refine ⟨?_, eInside, free, fun empty => ?_, fun nonempty => ?_⟩
  · cases filled : table.isFilled ei b with
    | false => exact head filled ▸ positive.ne'
    | true =>
      have lower := overflow filled
      have two := table.two_le_tableEntries
      omega
  · apply head
    rw [← Bool.not_eq_true, filledIff]
    exact not_not.mpr empty
  · exact overflow (filledIff.mpr nonempty)

theorem Shaped.claim {table' : IpaTable E} {chain : Nat → List Nat} {b e : Nat}
    (shaped : table.Shaped ei chain) (inside : b < table.tableEntries)
    (claimable : table.Claimable ei chain b e)
    (appended : Appended ei table table' e ((chain b).getLastD 0)) :
    table'.Shaped ei (Function.update chain b (chain b ++ [e])) :=
  shaped.append inside claimable.inside claimable.nonzero claimable.free
    claimable.first claimable.overflow appended

/-! ### Deleting a record -/

section Delete

variable (lawful : ei.Lawful)
include lawful

theorem eraseEntry_unlinked (table : IpaTable E) (e : Nat) :
    Unlinked ei table (table.eraseEntry ei e) e 0 0 where
  same := table.eraseEntry_same e
  filled := table.isFilled_eraseEntry lawful e
  next := fun i => by simp [table.nextIndex_eraseEntry lawful e i]
  prev := fun i different => by simp [table.prevIndex_eraseEntry different]
  prevVacant := table.prevIndex_eraseEntry_base lawful
  tblCnt := by rw [eraseEntry_curTblCnt]; split <;> rfl
  expnCnt := by rw [eraseEntry_curExpnTblCnt]; split <;> rfl

/-- `ipa_table_delete_entry` after the command that redirects the predecessor
has reached the table. -/
theorem deleteEntry_unlinked {posted : IpaTable E} {p e n : Nat}
    (same : SameTable table posted)
    (filled : ∀ i, i ≠ e → posted.isFilled ei i = table.isFilled ei i)
    (next : ∀ i, i ≠ e → posted.nextIndex ei i =
      if p ≠ 0 ∧ i = p then n else table.nextIndex ei i)
    (prev : ∀ i, i ≠ e → posted.prevIndex ei i = table.prevIndex ei i)
    (tblCnt : posted.curTblCnt = table.curTblCnt)
    (expnCnt : posted.curExpnTblCnt = table.curExpnTblCnt)
    (overflow : n ≠ 0 → table.tableEntries ≤ n) :
    Unlinked ei table (posted.deleteEntry ei ⟨p, e, n⟩ false) e p n := by
  have repaired : ∃ mid : IpaTable E, SameTable table mid ∧
      posted.deleteEntry ei ⟨p, e, n⟩ false = mid.eraseEntry ei e ∧
      (∀ i, mid.isFilled ei i = posted.isFilled ei i) ∧
      (∀ i, mid.nextIndex ei i = posted.nextIndex ei i) ∧
      (∀ i, mid.prevIndex ei i =
        if n ≠ 0 ∧ i = n then p else posted.prevIndex ei i) ∧
      mid.curTblCnt = table.curTblCnt ∧
      mid.curExpnTblCnt = table.curExpnTblCnt := by
    by_cases last : n = 0
    · exact ⟨posted, same, by simp [deleteEntry, last], fun _ => rfl,
        fun _ => rfl, fun i => by simp [last], tblCnt, expnCnt⟩
    · refine ⟨posted.setPrevIndex ei n p,
        same.trans (posted.setPrevIndex_same n p), by simp [deleteEntry, last],
        fun i => posted.isFilled_setPrevIndex lawful n i p,
        fun i => posted.nextIndex_setPrevIndex lawful n i p, fun i => ?_,
        tblCnt, expnCnt⟩
      rw [posted.prevIndex_setPrevIndex lawful
        (same.tableEntries ▸ overflow last)]
      simp [last]
  obtain ⟨mid, sameMid, shape, midFilled, midNext, midPrev, midTbl, midExpn⟩ :=
    repaired
  rw [shape]
  constructor
  · exact sameMid.trans (mid.eraseEntry_same e)
  · intro i
    rw [mid.isFilled_eraseEntry lawful]
    split
    · rfl
    · next different => rw [midFilled, filled i different]
  · intro i
    rw [mid.nextIndex_eraseEntry lawful]
    split
    · rfl
    · next different => rw [midNext, next i different]
  · intro i different
    rw [mid.prevIndex_eraseEntry different, midPrev, prev i different]
  · intro inside
    exact mid.prevIndex_eraseEntry_base lawful
      (sameMid.tableEntries.symm ▸ inside)
  · rw [eraseEntry_curTblCnt, sameMid.tableEntries, midTbl]
    split <;> rfl
  · rw [eraseEntry_curExpnTblCnt, sameMid.tableEntries, midExpn]
    split <;> rfl

end Delete

theorem deleteEntry_prevEmpty {p e : Nat} (nonzero : p ≠ 0) (different : p ≠ e)
    (inside : p < table.tableEntries) :
    table.deleteEntry ei ⟨p, e, 0⟩ true =
      (table.deleteEntry ei ⟨p, e, 0⟩ false).eraseEntry ei p := by
  have commute : Function.update (Function.update table.entries p ei.blank) e
      ei.blank = Function.update (Function.update table.entries e ei.blank) p
        ei.blank :=
    Function.update_comm different _ _ _
  have pInside : p < table.geometry.tableEntries := inside
  by_cases base : e < table.geometry.tableEntries <;>
    simp [deleteEntry, eraseEntry, setEntry, tableEntries, nonzero, pInside,
      base, commute]

end IpaTable

end VendorModules.IpaNat
