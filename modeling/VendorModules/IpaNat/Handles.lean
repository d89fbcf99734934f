import VendorModules.IpaNat.TableView

namespace VendorModules.IpaNat

/-! The sizes of a table and the handles of its records in the sixteen bit words of the source. -/

/-- `IPA_BASE_TABLE_PERCENTAGE` and `IPA_BASE_TABLE_PCNT_4SRAM`, in hundredths. -/
def baseTablePercentage : MemIn → Nat
  | .ddr => 80
  | .sram => 100

/-- `IPA_EXPANSION_TABLE_PERCENTAGE` and `IPA_EXPANSION_TABLE_PCNT_4SRAM`. -/
def expansionTablePercentage : MemIn → Nat
  | .ddr => 20
  | .sram => 43

/-- The product of a size with a percentage. Up to `IPA_TABLE_MAX_ENTRIES` the `float` is truncated
to the same number. -/
def percentOf (numberOfEntries : BitVec 16) (percentage : Nat) : BitVec 16 :=
  BitVec.ofNat 16 (numberOfEntries.toNat * percentage / 100)

def get2PowerWordLoop : Nat → BitVec 16 → BitVec 16 → BitVec 16 → BitVec 16 × BitVec 16
  | 0, _, prev, curr => (prev, curr)
  | fuel + 1, tmp, prev, curr =>
    if tmp = 1 then (prev, curr)
    else get2PowerWordLoop fuel (tmp >>> 1) curr (curr <<< 1)

/-- `Get2PowerTightUpperBound` -/
def get2PowerTightUpperBoundWord (num : BitVec 16) : BitVec 16 :=
  if num = 0 then 2
  else
    let (prev, curr) := get2PowerWordLoop num.toNat num 0 2
    if num = prev then prev else curr

/-- `GetEvenTightUpperBound` -/
def getEvenTightUpperBoundWord (num : BitVec 16) : BitVec 16 :=
  if num = 0 then 2 else if num % 2 ≠ 0 then num + 1 else num

/-- `ipa_table_calculate_entries_num`: `table_entries` and `expn_table_entries`. -/
def calculateEntriesWords (nmi : MemIn) (numberOfEntries : BitVec 16) :
    Except Errno (BitVec 16 × BitVec 16) :=
  if numberOfEntries.toNat > tableMaxEntries then .error .einval
  else
    let tableEntries :=
      get2PowerTightUpperBoundWord (percentOf numberOfEntries (baseTablePercentage nmi))
    let expnTableEntries :=
      getEvenTightUpperBoundWord (percentOf numberOfEntries (expansionTablePercentage nmi))
    if tableEntries.toNat + expnTableEntries.toNat > tableMaxEntries then .error .einval
    else .ok (tableEntries, expnTableEntries)

/-- `MakeEntryHdl` -/
def makeEntryHdlWord (tableEntries : BitVec 16) (nmi : MemIn) (tblEntry : BitVec 16) : BitVec 16 :=
  let entryHdl :=
    if tblEntry ≥ tableEntries then ((tblEntry - tableEntries) <<< 1) ||| 1
    else tblEntry <<< 1
  entryHdl ||| (BitVec.ofNat 16 nmi.code <<< 15)

/-- What `BREAK_RULE_HDL` makes of a handle. -/
structure BrokenRuleHdl where
  nmi : MemIn
  isExpnTbl : Bool
  indx : BitVec 16
  deriving DecidableEq, Repr

/-- `BREAK_RULE_HDL` -/
def breakRuleHdlWord (tableEntries : BitVec 16) (hdl : BitVec 32) : BrokenRuleHdl where
  nmi := if (hdl >>> 15) &&& 1 = 1 then .sram else .ddr
  isExpnTbl := hdl &&& 1 == 1
  indx := ((hdl >>> 1) &&& 0xFFF).setWidth 16 + if hdl &&& 1 = 1 then tableEntries else 0

/-- `ipa_table_get_entry`: the index of the record. -/
def getEntryWord (tableEntries expnTableEntries : BitVec 16) (entryHandle : BitVec 32) :
    Except Errno (BitVec 16) :=
  let recIndex := (breakRuleHdlWord tableEntries entryHandle).indx
  if recIndex.toNat ≥ tableEntries.toNat + expnTableEntries.toNat then .error .einval
  else .ok recIndex

/-! ### The sizes -/

theorem toNat_get2PowerWordLoop (fuel : Nat) (tmp prev curr : BitVec 16)
    (room : curr.toNat * tmp.toNat < 2 ^ 16) (positive : 0 < tmp.toNat) :
    (get2PowerWordLoop fuel tmp prev curr).1.toNat =
        (get2PowerLoop fuel tmp.toNat prev.toNat curr.toNat).1 ∧
      (get2PowerWordLoop fuel tmp prev curr).2.toNat =
        (get2PowerLoop fuel tmp.toNat prev.toNat curr.toNat).2 := by
  induction fuel generalizing tmp prev curr with
  | zero => exact ⟨rfl, rfl⟩
  | succ fuel ih =>
    rw [get2PowerWordLoop, get2PowerLoop]
    have one : tmp = 1 ↔ tmp.toNat = 1 := by
      rw [← BitVec.toNat_inj]
      rfl
    by_cases last : tmp = 1
    · rw [if_pos last, if_pos (one.mp last)]
      exact ⟨rfl, rfl⟩
    · rw [if_neg last, if_neg fun h => last (one.mpr h)]
      have two : 2 ≤ tmp.toNat := by
        have differs : tmp.toNat ≠ 1 := fun h => last (one.mpr h)
        omega
      have doubled : curr.toNat * 2 ≤ curr.toNat * tmp.toNat := Nat.mul_le_mul_left _ two
      have half : (tmp >>> 1).toNat = tmp.toNat / 2 := by
        rw [BitVec.toNat_ushiftRight, Nat.shiftRight_eq_div_pow, Nat.pow_one]
      have twice : (curr <<< 1).toNat = curr.toNat * 2 := by
        rw [BitVec.toNat_shiftLeft, Nat.shiftLeft_eq, Nat.pow_one]
        exact Nat.mod_eq_of_lt (by omega)
      have onward := ih (tmp >>> 1) curr (curr <<< 1) (by
        rw [half, twice, Nat.mul_assoc]
        refine Nat.lt_of_le_of_lt (Nat.mul_le_mul_left _ ?_) room
        omega) (by rw [half]; omega)
      rwa [half, twice] at onward

theorem toNat_get2PowerTightUpperBoundWord {num : BitVec 16} (small : num.toNat < 2 ^ 15) :
    (get2PowerTightUpperBoundWord num).toNat = get2PowerTightUpperBound num.toNat := by
  rw [get2PowerTightUpperBoundWord, get2PowerTightUpperBound]
  have zero : num = 0 ↔ num.toNat = 0 := by
    rw [← BitVec.toNat_inj]
    rfl
  by_cases empty : num = 0
  · rw [if_pos empty, if_pos (zero.mp empty)]
    rfl
  · rw [if_neg empty, if_neg fun h => empty (zero.mpr h)]
    have positive : 0 < num.toNat := Nat.pos_of_ne_zero fun h => empty (zero.mpr h)
    have start : (0 : BitVec 16).toNat = 0 := rfl
    have two : (2 : BitVec 16).toNat = 2 := rfl
    obtain ⟨first, second⟩ :=
      toNat_get2PowerWordLoop num.toNat num 0 2 (by rw [two]; omega) positive
    rw [start, two] at first second
    have tight : num = (get2PowerWordLoop num.toNat num 0 2).1 ↔
        num.toNat = (get2PowerLoop num.toNat num.toNat 0 2).1 := by
      rw [← first, BitVec.toNat_inj]
    dsimp only
    by_cases exact_ : num = (get2PowerWordLoop num.toNat num 0 2).1
    · rw [if_pos exact_, if_pos (tight.mp exact_), first]
    · rw [if_neg exact_, if_neg fun h => exact_ (tight.mpr h), second]

theorem toNat_getEvenTightUpperBoundWord {num : BitVec 16} (small : num.toNat < 2 ^ 15) :
    (getEvenTightUpperBoundWord num).toNat = getEvenTightUpperBound num.toNat := by
  rw [getEvenTightUpperBoundWord, getEvenTightUpperBound]
  have zero : num = 0 ↔ num.toNat = 0 := by
    rw [← BitVec.toNat_inj]
    rfl
  have odd : num % 2 ≠ 0 ↔ num.toNat % 2 ≠ 0 := by
    rw [ne_eq, ← BitVec.toNat_inj, BitVec.toNat_umod]
    rfl
  by_cases empty : num = 0
  · rw [if_pos empty, if_pos (zero.mp empty)]
    rfl
  · rw [if_neg empty, if_neg fun h => empty (zero.mpr h)]
    by_cases up : num % 2 ≠ 0
    · rw [if_pos up, if_pos (odd.mp up), BitVec.toNat_add]
      exact Nat.mod_eq_of_lt (by
        have one : (1 : BitVec 16).toNat = 1 := rfl
        omega)
    · rw [if_neg up, if_neg fun h => up (odd.mpr h)]

def EntryShares.of (nmi : MemIn) (numberOfEntries : Nat) : EntryShares where
  base := numberOfEntries * baseTablePercentage nmi / 100
  expn := numberOfEntries * expansionTablePercentage nmi / 100
  expnLe := by
    apply Nat.div_le_div_right
    apply Nat.mul_le_mul_left
    cases nmi <;> decide

theorem toNat_percentOf {numberOfEntries : BitVec 16} {percentage : Nat}
    (near : numberOfEntries.toNat ≤ tableMaxEntries) (part : percentage ≤ 100) :
    (percentOf numberOfEntries percentage).toNat = numberOfEntries.toNat * percentage / 100 ∧
      numberOfEntries.toNat * percentage / 100 < 2 ^ 15 := by
  have bound : numberOfEntries.toNat * percentage / 100 ≤ numberOfEntries.toNat := by
    apply Nat.div_le_of_le_mul
    rw [Nat.mul_comm 100]
    exact Nat.mul_le_mul_left _ part
  rw [tableMaxEntries] at near
  refine ⟨?_, by omega⟩
  rw [percentOf, BitVec.toNat_ofNat]
  exact Nat.mod_eq_of_lt (by omega)

theorem calculateEntriesNum_ok {numberOfEntries : Nat} {shares : EntryShares}
    (near : numberOfEntries ≤ tableMaxEntries)
    (fits : get2PowerTightUpperBound shares.base + getEvenTightUpperBound shares.expn ≤
      tableMaxEntries) :
    ∃ geometry, calculateEntriesNum numberOfEntries shares = .ok geometry ∧
      geometry.tableEntries = get2PowerTightUpperBound shares.base ∧
      geometry.expnTableEntries = getEvenTightUpperBound shares.expn := by
  rw [calculateEntriesNum, if_neg (Nat.not_lt.mpr near), dif_pos fits]
  exact ⟨_, rfl, rfl, rfl⟩

theorem calculateEntriesWords_geometry {nmi : MemIn} {numberOfEntries : BitVec 16}
    {tableEntries expnTableEntries : BitVec 16}
    (accepted : calculateEntriesWords nmi numberOfEntries = .ok (tableEntries, expnTableEntries)) :
    ∃ geometry, calculateEntriesNum numberOfEntries.toNat (.of nmi numberOfEntries.toNat) =
        .ok geometry ∧
      geometry.tableEntries = tableEntries.toNat ∧
      geometry.expnTableEntries = expnTableEntries.toNat := by
  unfold calculateEntriesWords at accepted
  split at accepted
  · cases accepted
  · rename_i near
    have near := Nat.le_of_not_gt near
    obtain ⟨base, baseSmall⟩ := toNat_percentOf near
      (show baseTablePercentage nmi ≤ 100 by cases nmi <;> decide)
    obtain ⟨expn, expnSmall⟩ := toNat_percentOf near
      (show expansionTablePercentage nmi ≤ 100 by cases nmi <;> decide)
    dsimp only at accepted
    rw [toNat_get2PowerTightUpperBoundWord (base ▸ baseSmall),
      toNat_getEvenTightUpperBoundWord (expn ▸ expnSmall), base, expn] at accepted
    split at accepted
    · cases accepted
    · rename_i fits
      have fits := Nat.le_of_not_gt fits
      simp only [Except.ok.injEq, Prod.mk.injEq] at accepted
      obtain ⟨rfl, rfl⟩ := accepted
      rw [toNat_get2PowerTightUpperBoundWord (base ▸ baseSmall),
        toNat_getEvenTightUpperBoundWord (expn ▸ expnSmall), base, expn]
      exact calculateEntriesNum_ok near fits

/-! ### The handles -/

theorem toNat_makeEntryHdlWord {tableEntries tblEntry : BitVec 16} (nmi : MemIn)
    (base : tableEntries.toNat ≤ 4096) (expn : tblEntry.toNat < tableEntries.toNat + 4096) :
    (makeEntryHdlWord tableEntries nmi tblEntry).toNat =
      (if tblEntry.toNat ≥ tableEntries.toNat then (tblEntry.toNat - tableEntries.toNat) * 2 + 1
        else tblEntry.toNat * 2) + nmi.code * 32768 := by
  have top : (BitVec.ofNat 16 nmi.code <<< 15).toNat = nmi.code <<< 15 := by
    cases nmi <;> rfl
  have low (entryHdl : BitVec 16) (small : entryHdl.toNat < 2 ^ 15) :
      (entryHdl ||| (BitVec.ofNat 16 nmi.code <<< 15)).toNat =
        entryHdl.toNat + nmi.code * 32768 := by
    rw [BitVec.toNat_or, top, Nat.or_comm, ← Nat.shiftLeft_add_eq_or_of_lt small,
      Nat.shiftLeft_eq]
    omega
  unfold makeEntryHdlWord
  dsimp only
  by_cases outside : tblEntry ≥ tableEntries
  · have place : (tblEntry - tableEntries).toNat = tblEntry.toNat - tableEntries.toNat :=
      BitVec.toNat_sub_of_le outside
    have shifted : ((tblEntry - tableEntries) <<< 1).toNat =
        (tblEntry.toNat - tableEntries.toNat) <<< 1 := by
      rw [BitVec.toNat_shiftLeft, place, Nat.shiftLeft_eq, Nat.pow_one]
      exact Nat.mod_eq_of_lt (by omega)
    have typed : (((tblEntry - tableEntries) <<< 1) ||| 1).toNat =
        (tblEntry.toNat - tableEntries.toNat) * 2 + 1 := by
      have one : (1 : BitVec 16).toNat = 1 := rfl
      rw [BitVec.toNat_or, shifted, one, ← Nat.shiftLeft_add_eq_or_of_lt (by decide),
        Nat.shiftLeft_eq, Nat.pow_one]
    have above : tblEntry.toNat ≥ tableEntries.toNat := outside
    rw [if_pos outside, if_pos above, low _ (by rw [typed]; omega), typed]
  · have inside : tblEntry.toNat < tableEntries.toNat := Nat.lt_of_not_le outside
    have shifted : (tblEntry <<< 1).toNat = tblEntry.toNat * 2 := by
      rw [BitVec.toNat_shiftLeft, Nat.shiftLeft_eq, Nat.pow_one]
      exact Nat.mod_eq_of_lt (by omega)
    rw [if_neg outside, if_neg (Nat.not_le.mpr inside), low _ (by rw [shifted]; omega), shifted]

theorem toNat_and_one (hdl : BitVec 32) : (hdl &&& 1).toNat = hdl.toNat % 2 := by
  rw [BitVec.toNat_and]
  exact Nat.and_two_pow_sub_one_eq_mod hdl.toNat 1

theorem and_one_eq_one_iff (hdl : BitVec 32) : hdl &&& 1 = 1 ↔ hdl.toNat % 2 = 1 := by
  rw [← BitVec.toNat_inj, toNat_and_one]
  rfl

theorem breakRuleHdlWord_makeEntryHdlWord {tableEntries tblEntry : BitVec 16} (nmi : MemIn)
    (base : tableEntries.toNat ≤ 4096) (expn : tblEntry.toNat < tableEntries.toNat + 4096) :
    breakRuleHdlWord tableEntries ((makeEntryHdlWord tableEntries nmi tblEntry).setWidth 32) =
      { nmi, isExpnTbl := decide (tableEntries ≤ tblEntry), indx := tblEntry } := by
  have hdl : ((makeEntryHdlWord tableEntries nmi tblEntry).setWidth 32).toNat =
      (if tblEntry.toNat ≥ tableEntries.toNat then (tblEntry.toNat - tableEntries.toNat) * 2 + 1
        else tblEntry.toNat * 2) + nmi.code * 32768 := by
    rw [BitVec.toNat_setWidth, toNat_makeEntryHdlWord nmi base expn]
    refine Nat.mod_eq_of_lt ?_
    cases nmi <;> simp only [MemIn.code] <;> split <;> omega
  generalize (makeEntryHdlWord tableEntries nmi tblEntry).setWidth 32 = word at hdl
  have outside : tableEntries ≤ tblEntry ↔ tableEntries.toNat ≤ tblEntry.toNat := Iff.rfl
  have mem : (word >>> 15) &&& 1 = 1 ↔ nmi = .sram := by
    rw [and_one_eq_one_iff, BitVec.toNat_ushiftRight, Nat.shiftRight_eq_div_pow, hdl]
    cases nmi <;> simp only [MemIn.code] <;> split <;> simp <;> omega
  have kind : word &&& 1 = 1 ↔ tableEntries ≤ tblEntry := by
    rw [and_one_eq_one_iff, hdl, outside]
    cases nmi <;> simp only [MemIn.code] <;> split <;> omega
  have place : (((word >>> 1) &&& 0xFFF).setWidth 16).toNat = word.toNat / 2 % 4096 := by
    rw [BitVec.toNat_setWidth, BitVec.toNat_and, BitVec.toNat_ushiftRight,
      Nat.shiftRight_eq_div_pow]
    have mask := Nat.and_two_pow_sub_one_eq_mod (word.toNat / 2 ^ 1) 12
    rw [show (0xFFF : BitVec 32).toNat = 2 ^ 12 - 1 from rfl, mask]
    omega
  unfold breakRuleHdlWord
  congr 1
  · by_cases fast : nmi = .sram
    · rw [if_pos (mem.mpr fast), fast]
    · rw [if_neg fun h => fast (mem.mp h)]
      cases nmi with
      | ddr => rfl
      | sram => exact absurd rfl fast
  · rw [Bool.eq_iff_iff, beq_iff_eq, kind, decide_eq_true_iff]
  · apply BitVec.eq_of_toNat_eq
    by_cases expansion : tableEntries ≤ tblEntry
    · have above : tblEntry.toNat ≥ tableEntries.toNat := outside.mp expansion
      rw [if_pos (kind.mpr expansion), BitVec.toNat_add, place, hdl, if_pos above]
      cases nmi <;> simp only [MemIn.code] <;> omega
    · have below : ¬ tblEntry.toNat ≥ tableEntries.toNat := mt outside.mpr expansion
      rw [if_neg fun h => expansion (kind.mp h), BitVec.toNat_add, place, hdl, if_neg below]
      have null : (0 : BitVec 16).toNat = 0 := rfl
      cases nmi <;> simp only [MemIn.code] <;> omega

structure HandlesDecode (tableEntries expnTableEntries : BitVec 16) : Prop where
  decoded : ∀ nmi tblEntry, tblEntry.toNat < tableEntries.toNat + expnTableEntries.toNat →
    breakRuleHdlWord tableEntries ((makeEntryHdlWord tableEntries nmi tblEntry).setWidth 32) =
      { nmi, isExpnTbl := decide (tableEntries ≤ tblEntry), indx := tblEntry }
  zero : ∀ nmi tblEntry, tblEntry.toNat < tableEntries.toNat + expnTableEntries.toNat →
    (makeEntryHdlWord tableEntries nmi tblEntry = 0 ↔ nmi = .ddr ∧ tblEntry = 0)
  distinct : ∀ nmi tblEntry nmi' tblEntry',
    tblEntry.toNat < tableEntries.toNat + expnTableEntries.toNat →
    tblEntry'.toNat < tableEntries.toNat + expnTableEntries.toNat →
    makeEntryHdlWord tableEntries nmi tblEntry = makeEntryHdlWord tableEntries nmi' tblEntry' →
      nmi = nmi' ∧ tblEntry = tblEntry'
  entry : ∀ nmi tblEntry, tblEntry.toNat < tableEntries.toNat + expnTableEntries.toNat →
    getEntryWord tableEntries expnTableEntries
      ((makeEntryHdlWord tableEntries nmi tblEntry).setWidth 32) = .ok tblEntry
  table : ∀ {E : Type} (table : IpaTable E) (tblEntry : BitVec 16),
    table.geometry.tableEntries = tableEntries.toNat →
    table.geometry.expnTableEntries = expnTableEntries.toNat →
    tblEntry.toNat < tableEntries.toNat + expnTableEntries.toNat →
      table.makeEntryHdl tblEntry.toNat =
          (makeEntryHdlWord tableEntries table.nmi tblEntry).toNat ∧
        table.getEntry (makeEntryHdlWord tableEntries table.nmi tblEntry).toNat =
          .ok tblEntry.toNat

theorem handlesDecode {tableEntries expnTableEntries : BitVec 16}
    (base : tableEntries.toNat ≤ 4096) (positive : 0 < tableEntries.toNat)
    (expn : expnTableEntries.toNat < 4096) : HandlesDecode tableEntries expnTableEntries where
  decoded := by
    intro nmi tblEntry inside
    exact breakRuleHdlWord_makeEntryHdlWord nmi base (by omega)
  zero := by
    intro nmi tblEntry inside
    rw [← BitVec.toNat_inj, toNat_makeEntryHdlWord nmi base (by omega)]
    have null : (0 : BitVec 16).toNat = 0 := rfl
    have first : tblEntry = 0 ↔ tblEntry.toNat = 0 := by
      rw [← BitVec.toNat_inj]
      rfl
    rw [first, null]
    cases nmi <;> simp only [MemIn.code] <;> split <;> simp <;> omega
  distinct := by
    intro nmi tblEntry nmi' tblEntry' inside inside' same
    have broken := breakRuleHdlWord_makeEntryHdlWord nmi base
      (show tblEntry.toNat < tableEntries.toNat + 4096 by omega)
    rw [same, breakRuleHdlWord_makeEntryHdlWord nmi' base (by omega)] at broken
    simp only [BrokenRuleHdl.mk.injEq] at broken
    exact ⟨broken.1.symm, broken.2.2.symm⟩
  entry := by
    intro nmi tblEntry inside
    rw [getEntryWord, breakRuleHdlWord_makeEntryHdlWord nmi base (by omega)]
    exact if_neg (Nat.not_le.mpr inside)
  table := by
    intro E table tblEntry tableSize expnSize inside
    have same : table.makeEntryHdl tblEntry.toNat =
        (makeEntryHdlWord tableEntries table.nmi tblEntry).toNat := by
      rw [toNat_makeEntryHdlWord table.nmi base (by omega), IpaTable.makeEntryHdl,
        IpaTable.tableEntries, tableSize]
    refine ⟨same, ?_⟩
    rw [← same]
    apply table.getEntry_makeEntryHdl
    rw [IpaTable.totTblEnts, TableGeometry.totTblEnts, tableSize, expnSize]
    exact inside

/-- The handles of all accepted sizes. Of two tables in different memories no handle is the
same. -/
theorem handlesDecode_of_accepted {nmi nmi' : MemIn}
    {numberOfEntries numberOfEntries' tableEntries expnTableEntries tableEntries'
      expnTableEntries' : BitVec 16}
    (accepted : calculateEntriesWords nmi numberOfEntries = .ok (tableEntries, expnTableEntries))
    (accepted' : calculateEntriesWords nmi' numberOfEntries' =
      .ok (tableEntries', expnTableEntries')) :
    HandlesDecode tableEntries expnTableEntries ∧
      ∀ mem mem' tblEntry tblEntry',
        tblEntry.toNat < tableEntries.toNat + expnTableEntries.toNat →
        tblEntry'.toNat < tableEntries'.toNat + expnTableEntries'.toNat → mem ≠ mem' →
          makeEntryHdlWord tableEntries mem tblEntry ≠
            makeEntryHdlWord tableEntries' mem' tblEntry' := by
  obtain ⟨geometry, -, base, expn⟩ := calculateEntriesWords_geometry accepted
  obtain ⟨geometry', -, base', expn'⟩ := calculateEntriesWords_geometry accepted'
  have baseLe := geometry.tableEntries_le
  have basePos := geometry.two_le_tableEntries
  have expnLt := geometry.expnTableEntries_lt
  have baseLe' := geometry'.tableEntries_le
  have expnLt' := geometry'.expnTableEntries_lt
  rw [base] at baseLe basePos
  rw [expn] at expnLt
  rw [base'] at baseLe'
  rw [expn'] at expnLt'
  refine ⟨handlesDecode baseLe (by omega) expnLt, ?_⟩
  intro mem mem' tblEntry tblEntry' inside inside' differs same
  have words := congrArg BitVec.toNat same
  rw [toNat_makeEntryHdlWord mem baseLe (by omega),
    toNat_makeEntryHdlWord mem' baseLe' (by omega)] at words
  apply differs
  cases mem <;> cases mem' <;> simp only [MemIn.code] at words <;> first
    | rfl
    | (split at words <;> split at words <;> omega)

/-- A table in DDR and one in SRAM that are as large as can be. -/
theorem largest_handlesDecode :
    HandlesDecode 4096 1024 ∧ ∀ mem mem' tblEntry tblEntry',
      tblEntry.toNat < (4096 : BitVec 16).toNat + (1024 : BitVec 16).toNat →
      tblEntry'.toNat < (4096 : BitVec 16).toNat + (1022 : BitVec 16).toNat → mem ≠ mem' →
        makeEntryHdlWord 4096 mem tblEntry ≠ makeEntryHdlWord 4096 mem' tblEntry' :=
  @handlesDecode_of_accepted .ddr .sram 5120 2378 4096 1024 4096 1022 (by decide +kernel)
    (by decide +kernel)

/-- The record zero of a table in DDR, which no chain leads to. -/
theorem first_handle_zero :
    calculateEntriesWords .ddr 100 = .ok (128, 20) ∧ makeEntryHdlWord 128 .ddr 0 = 0 := by
  decide +kernel

end VendorModules.IpaNat

namespace VendorModules.IpaNat

/-! How many entries a table in SRAM is given: `ipa_calc_num_sram_table_entries`. -/

/-- `ipa_table_calculate_size` -/
def calculateSizeWord (entrySize : BitVec 32) (entries : BitVec 16 × BitVec 16) : BitVec 32 :=
  entrySize * (entries.1.setWidth 32 + entries.2.setWidth 32)

def triedEntries (tot : BitVec 16) : BitVec 16 × BitVec 16 :=
  (get2PowerTightUpperBoundWord (percentOf tot (baseTablePercentage .sram)),
    getEvenTightUpperBoundWord (percentOf tot (expansionTablePercentage .sram)))

def triedSize (table1EntSize table2EntSize : BitVec 32) (tot : BitVec 16) : BitVec 32 :=
  calculateSizeWord table1EntSize (triedEntries tot) +
    calculateSizeWord table2EntSize (triedEntries tot)

/-- The loop, as far as `fuel` iterations go. -/
def calcNumLoop (sramSize table1EntSize table2EntSize : BitVec 32) :
    Nat → BitVec 16 → BitVec 16 → Option (BitVec 16)
  | 0, _, _ => none
  | fuel + 1, numEntries, tot =>
    if sramSize < triedSize table1EntSize table2EntSize tot then some numEntries
    else calcNumLoop sramSize table1EntSize table2EntSize fuel tot (tot + 1)

/-- `ipa_calc_num_sram_table_entries`: what it returns, and `*num_entries_ptr`. -/
def calcNumSramTableEntries (sramSize table1EntSize table2EntSize : BitVec 32) (fuel : Nat) :
    Option (Int × BitVec 16) :=
  (calcNumLoop sramSize table1EntSize table2EntSize fuel 0 1).map fun numEntries =>
    (if numEntries ≠ 0 then 0 else -1, numEntries)

section Sizes

def sramEntries (numberOfEntries : Nat) : Nat :=
  get2PowerTightUpperBound numberOfEntries +
    getEvenTightUpperBound (numberOfEntries * expansionTablePercentage .sram / 100)

variable {numberOfEntries numberOfEntries' : Nat} {tot : BitVec 16}

theorem sramEntries_mono (le : numberOfEntries ≤ numberOfEntries') :
    sramEntries numberOfEntries ≤ sramEntries numberOfEntries' :=
  Nat.add_le_add (get2PowerTightUpperBound_mono le)
    (getEvenTightUpperBound_mono (Nat.div_le_div_right (Nat.mul_le_mul_right _ le)))

theorem sramEntries_refused : sramEntries 2384 = 5122 := by decide +kernel

theorem sramEntries_accepted : sramEntries 2383 = 5120 := by decide +kernel

theorem percentOf_sram_base : percentOf tot (baseTablePercentage .sram) = tot := by
  rw [percentOf]
  change BitVec.ofNat 16 (tot.toNat * 100 / 100) = tot
  rw [Nat.mul_div_cancel _ (by decide), BitVec.ofNat_toNat, BitVec.setWidth_eq]

theorem toNat_percentOf_sram_expn :
    (percentOf tot (expansionTablePercentage .sram)).toNat =
      tot.toNat * expansionTablePercentage .sram / 100 ∧
    tot.toNat * expansionTablePercentage .sram / 100 < 2 ^ 15 := by
  have word := tot.isLt
  have short : tot.toNat * expansionTablePercentage .sram / 100 < 2 ^ 15 := by
    change tot.toNat * 43 / 100 < 2 ^ 15
    omega
  refine ⟨?_, short⟩
  rw [percentOf, BitVec.toNat_ofNat]
  exact Nat.mod_eq_of_lt (by omega)

theorem triedEntries_eq (small : tot.toNat < 2 ^ 15) :
    (triedEntries tot).1.toNat + (triedEntries tot).2.toNat = sramEntries tot.toNat := by
  obtain ⟨expn, short⟩ := @toNat_percentOf_sram_expn tot
  rw [triedEntries, percentOf_sram_base, toNat_get2PowerTightUpperBoundWord small,
    toNat_getEvenTightUpperBoundWord (by rwa [expn]), expn, sramEntries]

/-- `ipa_table_calculate_entries_num` takes the numbers up to 2383, and gives them the sizes that
the loop tries. -/
theorem calculateEntriesWords_sram_iff {entries : BitVec 16 × BitVec 16} :
    calculateEntriesWords .sram tot = .ok entries ↔
      tot.toNat ≤ 2383 ∧ entries = triedEntries tot := by
  have accepted := sramEntries_accepted
  have refused := sramEntries_refused
  have call : calculateEntriesWords .sram tot =
      if tot.toNat > 5120 then .error .einval
      else if (triedEntries tot).1.toNat + (triedEntries tot).2.toNat > 5120 then .error .einval
      else .ok (triedEntries tot) := rfl
  rw [call]
  by_cases beyond : tot.toNat > 5120
  · rw [if_pos beyond]
    exact iff_of_false (fun same => nomatch same) (fun small => by omega)
  · have same := @triedEntries_eq tot (by omega)
    rw [if_neg beyond, same]
    by_cases small : tot.toNat ≤ 2383
    · have total := sramEntries_mono small
      rw [if_neg (by omega), Except.ok.injEq, eq_comm, and_iff_right small]
    · have total := sramEntries_mono (by omega : 2384 ≤ tot.toNat)
      rw [if_pos (by omega)]
      exact iff_of_false (fun same => nomatch same) fun accepted => small accepted.1

end Sizes

section Loop

variable {sramSize table1EntSize table2EntSize : BitVec 32} {tot : BitVec 16}

theorem calcNumLoop_eq {k : Nat}
    (first : ∀ j < k, 0 < j → ¬sramSize < triedSize table1EntSize table2EntSize (.ofNat 16 j))
    (stop : sramSize < triedSize table1EntSize table2EntSize (.ofNat 16 k)) (fuel j : Nat)
    (before : j < k) :
    calcNumLoop sramSize table1EntSize table2EntSize fuel (.ofNat 16 j) (.ofNat 16 (j + 1)) =
      if k ≤ j + fuel then some (.ofNat 16 (k - 1)) else none := by
  induction fuel generalizing j with
  | zero => rw [calcNumLoop, if_neg (by omega)]
  | succ fuel ih =>
    rw [calcNumLoop]
    by_cases last : j + 1 = k
    · rw [last, if_pos stop, if_pos (by omega), ← last, Nat.add_sub_cancel]
    · have next : BitVec.ofNat 16 (j + 1) + 1 = BitVec.ofNat 16 (j + 1 + 1) := by
        rw [BitVec.ofNat_add (j + 1) 1]
        rfl
      rw [if_neg (first (j + 1) (by omega) (by omega)), next, ih (j + 1) (by omega)]
      congr 1
      rw [eq_iff_iff]
      omega

theorem calcNumLoop_some {fuel : Nat} {numEntries : BitVec 16}
    (ran : calcNumLoop sramSize table1EntSize table2EntSize fuel (tot - 1) tot = some numEntries) :
    sramSize < triedSize table1EntSize table2EntSize (numEntries + 1) := by
  induction fuel generalizing tot with
  | zero => cases ran
  | succ fuel ih =>
    rw [calcNumLoop] at ran
    split_ifs at ran with stop
    · cases ran
      rwa [BitVec.sub_add_cancel]
    · apply @ih (tot + 1)
      rwa [BitVec.add_sub_cancel]

/-- The sizes of the tables are `int`s. -/
def IntSized (table1EntSize table2EntSize : BitVec 32) : Prop :=
  (table1EntSize.toNat + table2EntSize.toNat) * (2 * 65535) < 2 ^ 31

instance (table1EntSize table2EntSize : BitVec 32) :
    Decidable (IntSized table1EntSize table2EntSize) :=
  inferInstanceAs (Decidable (_ < _))

theorem toNat_triedSize (sized : IntSized table1EntSize table2EntSize) (tot : BitVec 16) :
    (triedSize table1EntSize table2EntSize tot).toNat =
      (table1EntSize.toNat + table2EntSize.toNat) *
        ((triedEntries tot).1.toNat + (triedEntries tot).2.toNat) := by
  have base := (triedEntries tot).1.isLt
  have expn := (triedEntries tot).2.isLt
  have entries : ((triedEntries tot).1.setWidth 32 + (triedEntries tot).2.setWidth 32).toNat =
      (triedEntries tot).1.toNat + (triedEntries tot).2.toNat := by
    rw [BitVec.toNat_add, BitVec.toNat_setWidth, BitVec.toNat_setWidth]
    omega
  have bound : (table1EntSize.toNat + table2EntSize.toNat) *
      ((triedEntries tot).1.toNat + (triedEntries tot).2.toNat) < 2 ^ 31 :=
    Nat.lt_of_le_of_lt (Nat.mul_le_mul_left _ (by omega)) sized
  rw [triedSize, calculateSizeWord, calculateSizeWord, BitVec.toNat_add, BitVec.toNat_mul,
    BitVec.toNat_mul, entries]
  rw [Nat.add_mul] at bound ⊢
  generalize table1EntSize.toNat * _ = first at bound ⊢
  generalize table2EntSize.toNat * _ = second at bound ⊢
  omega

end Loop

/-- `ipa_table_calculate_entries_num` takes so many entries for both tables, and these fit. -/
def FitsSram (sramSize table1EntSize table2EntSize : BitVec 32) (numEntries : BitVec 16) : Prop :=
  ∃ entries, calculateEntriesWords .sram numEntries = .ok entries ∧
    (table1EntSize.toNat + table2EntSize.toNat) * (entries.1.toNat + entries.2.toNat) ≤
      sramSize.toNat

structure FindsLargest (sramSize table1EntSize table2EntSize : BitVec 32) : Prop where
  returns : ∃ fuel result,
    calcNumSramTableEntries sramSize table1EntSize table2EntSize fuel = some result
  largest : ∀ fuel numEntries,
    calcNumSramTableEntries sramSize table1EntSize table2EntSize fuel = some (0, numEntries) →
      FitsSram sramSize table1EntSize table2EntSize numEntries ∧
        ∀ other, FitsSram sramSize table1EntSize table2EntSize other → other ≤ numEntries

section Search

variable {sramSize table1EntSize table2EntSize : BitVec 32}

theorem fitsSram_iff {numEntries : BitVec 16} :
    FitsSram sramSize table1EntSize table2EntSize numEntries ↔
      numEntries.toNat ≤ 2383 ∧
        (table1EntSize.toNat + table2EntSize.toNat) * sramEntries numEntries.toNat ≤
          sramSize.toNat := by
  rw [FitsSram]
  constructor
  · rintro ⟨entries, accepted, fits⟩
    obtain ⟨small, rfl⟩ := calculateEntriesWords_sram_iff.mp accepted
    rw [triedEntries_eq (by omega)] at fits
    exact ⟨small, fits⟩
  · rintro ⟨small, fits⟩
    refine ⟨triedEntries numEntries, calculateEntriesWords_sram_iff.mpr ⟨small, rfl⟩, ?_⟩
    rwa [triedEntries_eq (by omega)]

theorem not_findsLargest_of_le (sized : IntSized table1EntSize table2EntSize)
    (large : (table1EntSize.toNat + table2EntSize.toNat) * 5122 ≤ sramSize.toNat) :
    ¬FindsLargest sramSize table1EntSize table2EntSize := by
  rintro ⟨⟨fuel, result, returned⟩, largest⟩
  obtain ⟨numEntries, ran, rfl⟩ := Option.map_eq_some_iff.mp returned
  have stop := @calcNumLoop_some sramSize table1EntSize table2EntSize 1 fuel numEntries ran
  have beyond : 2384 < (numEntries + 1).toNat := by
    by_contra small
    rw [BitVec.lt_def, toNat_triedSize sized, triedEntries_eq (by omega)] at stop
    have total := sramEntries_mono (Nat.not_lt.mp small)
    rw [sramEntries_refused] at total
    have product := Nat.mul_le_mul_left (table1EntSize.toNat + table2EntSize.toNat) total
    omega
  have word := numEntries.isLt
  have one : (1 : BitVec 16).toNat = 1 := rfl
  rw [BitVec.toNat_add, one] at beyond
  have some_entries : numEntries ≠ 0 := by
    rintro rfl
    change 2384 < (0 + 1) % 2 ^ 16 at beyond
    omega
  rw [if_pos some_entries] at returned
  have taken := (fitsSram_iff.mp (largest fuel numEntries returned).1).1
  omega

theorem findsLargest_of_lt (sized : IntSized table1EntSize table2EntSize)
    (small : sramSize.toNat < (table1EntSize.toNat + table2EntSize.toNat) * 5122) :
    FindsLargest sramSize table1EntSize table2EntSize := by
  have tried (j : Nat) (near : j ≤ 2384) :
      sramSize < triedSize table1EntSize table2EntSize (.ofNat 16 j) ↔
        sramSize.toNat < (table1EntSize.toNat + table2EntSize.toNat) * sramEntries j := by
    have value : (BitVec.ofNat 16 j).toNat = j := by
      rw [BitVec.toNat_ofNat]
      exact Nat.mod_eq_of_lt (by omega)
    rw [BitVec.lt_def, toNat_triedSize sized, triedEntries_eq (by omega), value]
  have exists_stop : ∃ k, 0 < k ∧
      sramSize.toNat < (table1EntSize.toNat + table2EntSize.toNat) * sramEntries k :=
    ⟨2384, by decide, by rwa [sramEntries_refused]⟩
  have near : Nat.find exists_stop ≤ 2384 :=
    Nat.find_min' exists_stop ⟨by decide, by rwa [sramEntries_refused]⟩
  obtain ⟨positive, stop⟩ := Nat.find_spec exists_stop
  have before : ∀ j < Nat.find exists_stop, 0 < j →
      (table1EntSize.toNat + table2EntSize.toNat) * sramEntries j ≤ sramSize.toNat :=
    fun j below some => Nat.not_lt.mp fun other => Nat.find_min exists_stop below ⟨some, other⟩
  generalize Nat.find exists_stop = k at near positive stop before
  have loop (fuel : Nat) := @calcNumLoop_eq sramSize table1EntSize table2EntSize k
    (fun j below some other => absurd ((tried j (by omega)).mp other)
      (Nat.not_lt.mpr (before j below some))) ((tried k near).mpr stop) fuel 0 positive
  have calc_eq (fuel : Nat) : calcNumSramTableEntries sramSize table1EntSize table2EntSize fuel =
      (if k ≤ 0 + fuel then some (.ofNat 16 (k - 1)) else none).map fun numEntries =>
        (if numEntries ≠ 0 then 0 else -1, numEntries) := by
    rw [← loop fuel]
    rfl
  have value : (BitVec.ofNat 16 (k - 1)).toNat = k - 1 := by
    rw [BitVec.toNat_ofNat]
    exact Nat.mod_eq_of_lt (by omega)
  constructor
  · refine ⟨k, (if BitVec.ofNat 16 (k - 1) ≠ 0 then 0 else -1, .ofNat 16 (k - 1)), ?_⟩
    rw [calc_eq, if_pos (by omega)]
    rfl
  · intro fuel numEntries returned
    rw [calc_eq] at returned
    split_ifs at returned with enough
    · rw [Option.map_some, Option.some.injEq, Prod.mk.injEq] at returned
      obtain ⟨success, rfl⟩ := returned
      have some_entries : k - 1 ≠ 0 := by
        intro none
        rw [none] at success
        cases success
      constructor
      · rw [fitsSram_iff, value]
        exact ⟨by omega, before (k - 1) (by omega) (by omega)⟩
      · intro other fits
        obtain ⟨taken, fits⟩ := fitsSram_iff.mp fits
        rw [BitVec.le_def, value]
        by_contra larger
        have total := sramEntries_mono (by omega : k ≤ other.toNat)
        have product := Nat.mul_le_mul_left (table1EntSize.toNat + table2EntSize.toNat) total
        omega
    · cases returned

end Search

/-- The number found is right exactly below the size from which on the search finds a number that
`ipa_table_calculate_entries_num` does not take, or goes round for ever. -/
theorem findsLargest_iff (sramSize table1EntSize table2EntSize : BitVec 32)
    (sized : IntSized table1EntSize table2EntSize) :
    FindsLargest sramSize table1EntSize table2EntSize ↔
      sramSize.toNat < (table1EntSize.toNat + table2EntSize.toNat) * 5122 := by
  constructor
  · intro finds
    by_contra large
    exact not_findsLargest_of_le sized (Nat.not_lt.mp large) finds
  · exact findsLargest_of_lt sized

/-- The sizes of `struct ipa_nat_rule` and `struct ipa_nat_indx_tbl_rule`, and an SRAM of 64 KiB. -/
theorem findsLargest_rules :
    FindsLargest 0x10000 32 4 ↔ (0x10000 : BitVec 32).toNat < (32 + 4) * 5122 :=
  findsLargest_iff 0x10000 32 4 (by decide)

/-- In an SRAM of 5 MiB every size fits that the loop tries. -/
theorem calcNumSramTableEntries_endless :
    (∀ fuel, calcNumSramTableEntries 0x500000 32 4 fuel = none) ∧ ¬FindsLargest 0x500000 32 4 := by
  have endless (fuel : Nat) (numEntries tot : BitVec 16) :
      calcNumLoop 0x500000 32 4 fuel numEntries tot = none := by
    induction fuel generalizing numEntries tot with
    | zero => rfl
    | succ fuel ih =>
      have base := (triedEntries tot).1.isLt
      have expn := (triedEntries tot).2.isLt
      have fits : ¬(0x500000 : BitVec 32) < triedSize 32 4 tot := by
        rw [BitVec.lt_def, toNat_triedSize (by decide)]
        change ¬5242880 < (32 + 4) * _
        omega
      rw [calcNumLoop, if_neg fits, ih]
  have none (fuel : Nat) : calcNumSramTableEntries 0x500000 32 4 fuel = none := by
    rw [calcNumSramTableEntries, endless]
    rfl
  refine ⟨none, fun finds => ?_⟩
  obtain ⟨fuel, result, returned⟩ := finds.returns
  rw [none] at returned
  cases returned

end VendorModules.IpaNat
