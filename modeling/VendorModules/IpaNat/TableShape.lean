import VendorModules.IpaNat.TableView

namespace VendorModules.IpaNat

open VendorModules.Lib

namespace IpaTable

variable {E U : Type} {ei : EntryInterface E U} {table table' : IpaTable E}
  {chain : Nat → List Nat}

def Busy (ei : EntryInterface E U) (table : IpaTable E) (i : Nat) : Prop :=
  i < table.totTblEnts ∧ table.isFilled ei i = true

/-- The shape of one table: its records form chains that start in the base
part, free records carry no links, and the counters count. -/
structure Shaped (ei : EntryInterface E U) (table : IpaTable E)
    (chain : Nat → List Nat) : Prop where
  buckets : Buckets (table.nextIndex ei) (table.prevIndex ei) 0
    (table.Busy ei) (fun i => i < table.tableEntries) chain
  vacant : ∀ i, i < table.totTblEnts → table.isFilled ei i = false →
    table.nextIndex ei i = 0 ∧
      (i < table.tableEntries → table.prevIndex ei i = 0)
  tblCnt : table.curTblCnt =
    population (Finset.range table.tableEntries) (table.isFilled ei)
  expnCnt : table.curExpnTblCnt =
    population (Finset.Ico table.tableEntries table.totTblEnts)
      (table.isFilled ei)

/-- `table'` is `table` with the record `e` filled and put behind `last`. -/
structure Appended (ei : EntryInterface E U) (table table' : IpaTable E)
    (e last : Nat) : Prop where
  same : SameTable table table'
  filled : ∀ i, table'.isFilled ei i =
    if i = e then true else table.isFilled ei i
  next : ∀ i, table'.nextIndex ei i =
    if i = e then 0 else if last ≠ 0 ∧ i = last then e
    else table.nextIndex ei i
  prev : ∀ i, table'.prevIndex ei i =
    if i = e then last else table.prevIndex ei i
  tblCnt : table'.curTblCnt =
    table.curTblCnt + if e < table.tableEntries then 1 else 0
  expnCnt : table'.curExpnTblCnt =
    table.curExpnTblCnt + if e < table.tableEntries then 0 else 1

/-- `table'` is `table` with the record `e` freed and its neighbours `p` and `n`
linked to each other. -/
structure Unlinked (ei : EntryInterface E U) (table table' : IpaTable E)
    (e p n : Nat) : Prop where
  same : SameTable table table'
  filled : ∀ i, table'.isFilled ei i =
    if i = e then false else table.isFilled ei i
  next : ∀ i, table'.nextIndex ei i =
    if i = e then 0 else if p ≠ 0 ∧ i = p then n else table.nextIndex ei i
  prev : ∀ i, i ≠ e → table'.prevIndex ei i =
    if n ≠ 0 ∧ i = n then p else table.prevIndex ei i
  prevVacant : e < table.tableEntries → table'.prevIndex ei e = 0
  tblCnt : table'.curTblCnt =
    table.curTblCnt - if e < table.tableEntries then 1 else 0
  expnCnt : table'.curExpnTblCnt =
    table.curExpnTblCnt - if e < table.tableEntries then 0 else 1

namespace Shaped

theorem blank (empty : ∀ i, i < table.totTblEnts → table.isFilled ei i = false)
    (next : ∀ i, i < table.totTblEnts → table.nextIndex ei i = 0)
    (prev : ∀ i, i < table.tableEntries → table.prevIndex ei i = 0)
    (tblCnt : table.curTblCnt = 0) (expnCnt : table.curExpnTblCnt = 0) :
    table.Shaped ei (fun _ => []) where
  buckets := by
    apply Buckets.empty
    rintro i ⟨inside, filled⟩
    rw [empty i inside] at filled
    cases filled
  vacant := fun i inside _ => ⟨next i inside, prev i⟩
  tblCnt := by
    rw [tblCnt, population_eq_zero]
    intro i member
    exact empty i ((Finset.mem_range.mp member).trans
      table.tableEntries_lt_totTblEnts)
  expnCnt := by
    rw [expnCnt, population_eq_zero]
    intro i member
    exact empty i (Finset.mem_Ico.mp member).2

theorem congr (shaped : table.Shaped ei chain) (same : SameTable table table')
    (filled : ∀ i, i < table.totTblEnts →
      table'.isFilled ei i = table.isFilled ei i)
    (next : ∀ i, i < table.totTblEnts →
      table'.nextIndex ei i = table.nextIndex ei i)
    (prev : ∀ i, table.Busy ei i ∨ i < table.tableEntries →
      table'.prevIndex ei i = table.prevIndex ei i)
    (tblCnt : table'.curTblCnt = table.curTblCnt)
    (expnCnt : table'.curExpnTblCnt = table.curExpnTblCnt) :
    table'.Shaped ei chain where
  buckets := by
    rw [same.tableEntries]
    apply shaped.buckets.congr
    · exact fun i busy => next i busy.1
    · exact fun i busy => prev i (Or.inl busy)
    · intro i
      rw [Busy, Busy, same.totTblEnts]
      exact and_congr_right fun inside => by rw [filled i inside]
  vacant := by
    rw [same.totTblEnts, same.tableEntries]
    intro i inside free
    rw [filled i inside] at free
    obtain ⟨noNext, noPrev⟩ := shaped.vacant i inside free
    refine ⟨(next i inside).trans noNext, fun base => ?_⟩
    exact (prev i (Or.inr base)).trans (noPrev base)
  tblCnt := by
    rw [tblCnt, same.tableEntries, shaped.tblCnt]
    refine (population_congr fun i member => ?_).symm
    exact filled i ((Finset.mem_range.mp member).trans
      table.tableEntries_lt_totTblEnts)
  expnCnt := by
    rw [expnCnt, same.tableEntries, same.totTblEnts, shaped.expnCnt]
    refine (population_congr fun i member => ?_).symm
    exact filled i (Finset.mem_Ico.mp member).2

variable (shaped : table.Shaped ei chain)
include shaped

theorem busy_ne_zero {i : Nat} (busy : table.Busy ei i) : i ≠ 0 := by
  rintro rfl
  exact shaped.buckets.nonnil busy

theorem busy_next {i : Nat} (busy : table.Busy ei i)
    (nonzero : table.nextIndex ei i ≠ 0) :
    table.Busy ei (table.nextIndex ei i) ∧
      table.prevIndex ei (table.nextIndex ei i) = i :=
  shaped.buckets.prev_of_next busy nonzero rfl

theorem busy_prev {i : Nat} (busy : table.Busy ei i)
    (nonzero : table.prevIndex ei i ≠ 0) :
    table.Busy ei (table.prevIndex ei i) ∧
      table.nextIndex ei (table.prevIndex ei i) = i :=
  shaped.buckets.next_of_prev busy nonzero rfl

theorem next_overflow {i : Nat} (busy : table.Busy ei i)
    (nonzero : table.nextIndex ei i ≠ 0) :
    table.tableEntries ≤ table.nextIndex ei i := by
  obtain ⟨nextBusy, back⟩ := shaped.busy_next busy nonzero
  by_contra inside
  have head := (shaped.buckets.prev_eq_nil_iff nextBusy).mpr
    (Nat.lt_of_not_le inside)
  exact shaped.busy_ne_zero busy (back.symm.trans head)

theorem prev_eq_zero_iff {i : Nat} (busy : table.Busy ei i) :
    table.prevIndex ei i = 0 ↔ i < table.tableEntries :=
  shaped.buckets.prev_eq_nil_iff busy

theorem next_ne_self {i : Nat} (busy : table.Busy ei i) :
    table.nextIndex ei i ≠ i := by
  intro loop
  have nonzero := shaped.busy_ne_zero busy
  obtain ⟨-, back⟩ := shaped.busy_next busy (by rwa [loop])
  have outside := shaped.next_overflow busy (by rwa [loop])
  rw [loop] at back outside
  obtain ⟨b, member⟩ := (shaped.buckets.covers i).mp busy
  obtain ⟨l, r, shape⟩ := List.append_of_mem member
  have successor := shaped.buckets.next_eq shape
  have distinct := shaped.buckets.nodup b
  rw [shape] at distinct
  cases r with
  | nil => exact nonzero (loop.symm.trans successor)
  | cons j r =>
    have same : i = j := loop.symm.trans successor
    rw [same] at distinct
    simp [List.nodup_append] at distinct

theorem chain_length_le (b : Nat) : (chain b).length ≤ table.totTblEnts := by
  have inside : ∀ i ∈ chain b, i ∈ List.range table.totTblEnts :=
    fun i member =>
      List.mem_range.mpr (shaped.buckets.occupied_of_mem member).1
  have bound := (List.subperm_of_subset (shaped.buckets.nodup b) inside).length_le
  rwa [List.length_range] at bound

theorem iteratorInit_eq {i : Nat} (busy : table.Busy ei i) :
    table.iteratorInit ei i =
      .ok
        { prevIndex := table.prevIndex ei i
          currIndex := i
          nextIndex := table.nextIndex ei i } := by
  have prevFound : ¬(table.prevIndex ei i ≠ 0 ∧
      table.getEntryByIndex (table.prevIndex ei i) = none) := by
    rintro ⟨nonzero, missing⟩
    rw [table.getEntryByIndex_eq_some nonzero
      (shaped.busy_prev busy nonzero).1.1] at missing
    cases missing
  have nextFound : ¬(table.nextIndex ei i ≠ 0 ∧
      table.getEntryByIndex (table.nextIndex ei i) = none) := by
    rintro ⟨nonzero, missing⟩
    rw [table.getEntryByIndex_eq_some nonzero
      (shaped.busy_next busy nonzero).1.1] at missing
    cases missing
  simp only [iteratorInit, busy.2, Bool.not_true, Bool.false_eq_true, if_false,
    if_neg prevFound, if_neg nextFound]

theorem iteratorNext_eq {i p : Nat} (busy : table.Busy ei i) :
    table.iteratorNext ei ⟨p, i, table.nextIndex ei i⟩ =
      .ok
        { prevIndex := i
          currIndex := table.nextIndex ei i
          nextIndex := table.nextIndex ei (table.nextIndex ei i) } ∨
    table.nextIndex ei i = 0 := by
  by_cases last : table.nextIndex ei i = 0
  · exact Or.inr last
  · left
    have nextBusy := (shaped.busy_next busy last).1
    have found : ¬(table.nextIndex ei (table.nextIndex ei i) ≠ 0 ∧
        table.getEntryByIndex
          (table.nextIndex ei (table.nextIndex ei i)) = none) := by
      rintro ⟨nonzero, missing⟩
      rw [table.getEntryByIndex_eq_some nonzero
        (shaped.busy_next nextBusy nonzero).1.1] at missing
      cases missing
    simp only [iteratorNext, if_neg found]

end Shaped

theorem iteratorEndLoop_of_linked {l : List Nat} {p i fuel : Nat}
    (linked : Linked (table.nextIndex ei) (table.prevIndex ei) p (i :: l) 0)
    (distinct : (i :: l).Nodup) (nonzero : 0 ∉ i :: l) (enough : l.length < fuel) :
    table.iteratorEndLoop ei fuel i = .ok ((i :: l).getLastD 0) := by
  induction l generalizing p i fuel with
  | nil =>
    obtain ⟨fuel, rfl⟩ : ∃ k, fuel = k + 1 := ⟨fuel - 1, by omega⟩
    have exit : table.nextIndex ei i = 0 := linked.2.1
    simp [iteratorEndLoop, exit]
  | cons j l induction =>
    obtain ⟨fuel, rfl⟩ : ∃ k, fuel = k + 1 := ⟨fuel - 1, by omega⟩
    obtain ⟨-, step, rest⟩ := linked
    have step : table.nextIndex ei i = j := step
    have jNonzero : j ≠ 0 := by
      rintro rfl
      simp at nonzero
    have jDistinct : j ≠ i := by
      rintro rfl
      simp at distinct
    rw [iteratorEndLoop, step, if_neg jNonzero, if_neg jDistinct,
      induction rest (List.nodup_cons.mp distinct).2
        (fun member => nonzero (List.mem_cons_of_mem _ member))
        (by simpa using enough)]
    simp

theorem Shaped.iteratorEnd_eq (shaped : table.Shaped ei chain) {b : Nat}
    (nonempty : chain b ≠ []) :
    table.iteratorEnd ei b = .ok ((chain b).getLastD 0) := by
  have linked := shaped.buckets.linked b
  have distinct := shaped.buckets.nodup b
  have nonzero := shaped.buckets.nil_not_mem b
  have short := shaped.chain_length_le b
  obtain ⟨l, shape, -⟩ := shaped.buckets.eq_cons nonempty
  rw [shape] at linked distinct nonzero short ⊢
  exact iteratorEndLoop_of_linked linked distinct nonzero
    (by simp only [List.length_cons] at short; omega)

namespace Shaped

variable (shaped : table.Shaped ei chain)
include shaped

theorem filled_base_iff {b : Nat} (inside : b < table.tableEntries) :
    table.isFilled ei b = true ↔ chain b ≠ [] := by
  rw [← shaped.buckets.occupied_head_iff inside, Busy,
    and_iff_right (inside.trans table.tableEntries_lt_totTblEnts)]

theorem busy_last {b : Nat} (nonempty : chain b ≠ []) :
    table.Busy ei ((chain b).getLastD 0) := by
  apply shaped.buckets.occupied_of_mem (b := b)
  rw [List.getLastD_eq_getLast?, List.getLast?_eq_some_getLast nonempty]
  exact List.getLast_mem nonempty

theorem append {b e : Nat} (inside : b < table.tableEntries)
    (eInside : e < table.totTblEnts) (nonzero : e ≠ 0)
    (free : table.isFilled ei e = false)
    (first : chain b = [] → e = b)
    (overflow : chain b ≠ [] → table.tableEntries ≤ e)
    (appended : Appended ei table table' e ((chain b).getLastD 0)) :
    table'.Shaped ei (Function.update chain b (chain b ++ [e])) := by
  have distinct : ∀ {i}, table.Busy ei i → i ≠ e := by
    rintro i busy rfl
    rw [busy.2] at free
    cases free
  have lastBusy : chain b ≠ [] → table.Busy ei ((chain b).getLastD 0) :=
    shaped.busy_last
  constructor
  · rw [appended.same.tableEntries]
    apply shaped.buckets.insert inside (fun busy => distinct busy rfl) nonzero
      first (fun nonempty => Nat.not_lt.mpr (overflow nonempty))
    · rw [appended.next, if_pos rfl]
    · rw [appended.prev, if_pos rfl]
    · intro nonempty
      have busy := lastBusy nonempty
      rw [appended.next, if_neg (distinct busy),
        if_pos ⟨shaped.busy_ne_zero busy, rfl⟩]
    · intro i busy notLast
      rw [appended.next, if_neg (distinct busy), if_neg fun h => notLast h.2]
    · intro i busy
      rw [appended.prev, if_neg (distinct busy)]
    · intro i
      rw [Busy, appended.same.totTblEnts, appended.filled]
      by_cases same : i = e
      · simp [same, eInside]
      · simp [same, Busy]
  · intro i iInside vacant
    rw [appended.filled] at vacant
    rw [appended.same.totTblEnts] at iInside
    have different : i ≠ e := by
      rintro rfl
      simp at vacant
    rw [if_neg different] at vacant
    have notLast : ¬((chain b).getLastD 0 ≠ 0 ∧ i = (chain b).getLastD 0) := by
      rintro ⟨lastNonzero, rfl⟩
      have nonempty : chain b ≠ [] := by
        intro empty
        simp [empty] at lastNonzero
      rw [(lastBusy nonempty).2] at vacant
      cases vacant
    rw [appended.next, if_neg different, if_neg notLast, appended.prev,
      if_neg different, appended.same.tableEntries]
    exact shaped.vacant i iInside vacant
  · rw [appended.tblCnt, appended.same.tableEntries, shaped.tblCnt,
      population_mark _ free appended.filled]
    simp only [Finset.mem_range]
  · rw [appended.expnCnt, appended.same.tableEntries, appended.same.totTblEnts, shaped.expnCnt,
      population_mark _ free appended.filled]
    by_cases base : e < table.tableEntries
    · rw [if_pos base, if_neg fun member => Nat.not_lt.mpr (Finset.mem_Ico.mp member).1 base]
    · rw [if_neg base, if_pos (Finset.mem_Ico.mpr ⟨Nat.le_of_not_lt base, eInside⟩)]

theorem unlink {e : Nat} (busy : table.Busy ei e)
    (removable : table.prevIndex ei e ≠ 0 ∨ table.nextIndex ei e = 0)
    (unlinked : Unlinked ei table table' e (table.prevIndex ei e)
      (table.nextIndex ei e)) :
    ∃ b l r, chain b = l ++ e :: r ∧
      table'.Shaped ei (Function.update chain b (l ++ r)) := by
  obtain ⟨b, member⟩ := (shaped.buckets.covers e).mp busy
  obtain ⟨l, r, shape⟩ := List.append_of_mem member
  have prevEq := shaped.buckets.prev_eq shape
  have nextEq := shaped.buckets.next_eq shape
  have pIsBusy : table.prevIndex ei e ≠ 0 → table.Busy ei (table.prevIndex ei e) :=
    fun nonzero => (shaped.busy_prev busy nonzero).1
  have nIsBusy : table.nextIndex ei e ≠ 0 → table.Busy ei (table.nextIndex ei e) :=
    fun nonzero => (shaped.busy_next busy nonzero).1
  have pDistinct : table.prevIndex ei e ≠ 0 → table.prevIndex ei e ≠ e := by
    intro nonzero loop
    have back := (shaped.busy_prev busy nonzero).2
    rw [loop] at back
    exact shaped.next_ne_self busy back
  have nDistinct := shaped.next_ne_self busy
  refine ⟨b, l, r, shape, ?_⟩
  constructor
  · rw [unlinked.same.tableEntries]
    apply shaped.buckets.remove shape
    · rcases removable with hasPrev | noNext
      · left
        rintro rfl
        exact hasPrev prevEq
      · right
        cases r with
        | nil => rfl
        | cons j r =>
          have jBusy : table.Busy ei j :=
            shaped.buckets.occupied_of_mem (b := b) (by simp [shape])
          exact absurd (nextEq.symm.trans noNext) (shaped.busy_ne_zero jBusy)
    · intro nonempty
      have nonzero : table.prevIndex ei e ≠ 0 := by
        obtain ⟨front, last, rfl⟩ :=
          (List.eq_nil_or_concat' l).resolve_left nonempty
        have lastBusy : table.Busy ei last :=
          shaped.buckets.occupied_of_mem (b := b) (by simp [shape])
        rw [prevEq]
        simpa using shaped.busy_ne_zero lastBusy
      rw [← prevEq, unlinked.next, if_neg (pDistinct nonzero),
        if_pos ⟨nonzero, rfl⟩, nextEq]
    · intro nonempty
      have nonzero : table.nextIndex ei e ≠ 0 := by
        obtain ⟨j, rest, rfl⟩ := List.exists_cons_of_ne_nil nonempty
        have jBusy : table.Busy ei j :=
          shaped.buckets.occupied_of_mem (b := b) (by simp [shape])
        rw [nextEq]
        exact shaped.busy_ne_zero jBusy
      rw [← nextEq, unlinked.prev _ nDistinct, if_pos ⟨nonzero, rfl⟩, prevEq]
    · intro i iBusy different notPred
      rw [← prevEq] at notPred
      rw [unlinked.next, if_neg different, if_neg fun h => notPred h.2]
    · intro i iBusy different notSucc
      rw [← nextEq] at notSucc
      rw [unlinked.prev i different, if_neg fun h => notSucc h.2]
    · intro i
      rw [Busy, unlinked.same.totTblEnts, unlinked.filled]
      by_cases same : i = e
      · simp [same]
      · simp [same, Busy]
  · intro i inside vacant
    rw [unlinked.filled] at vacant
    rw [unlinked.same.totTblEnts] at inside
    rw [unlinked.same.tableEntries]
    by_cases same : i = e
    · subst same
      refine ⟨by rw [unlinked.next, if_pos rfl], unlinked.prevVacant⟩
    · rw [if_neg same] at vacant
      have notBusy : ¬table.Busy ei i := by
        rintro ⟨-, filled⟩
        rw [filled] at vacant
        cases vacant
      have notPred : ¬(table.prevIndex ei e ≠ 0 ∧ i = table.prevIndex ei e) := by
        rintro ⟨nonzero, rfl⟩
        exact notBusy (pIsBusy nonzero)
      have notSucc : ¬(table.nextIndex ei e ≠ 0 ∧ i = table.nextIndex ei e) := by
        rintro ⟨nonzero, rfl⟩
        exact notBusy (nIsBusy nonzero)
      rw [unlinked.next, if_neg same, if_neg notPred, unlinked.prev i same,
        if_neg notSucc]
      exact shaped.vacant i inside vacant
  · rw [unlinked.tblCnt, unlinked.same.tableEntries, shaped.tblCnt,
      population_clear _ busy.2 unlinked.filled]
    simp only [Finset.mem_range]
  · rw [unlinked.expnCnt, unlinked.same.tableEntries, unlinked.same.totTblEnts, shaped.expnCnt,
      population_clear _ busy.2 unlinked.filled]
    by_cases base : e < table.tableEntries
    · rw [if_pos base, if_neg fun member => Nat.not_lt.mpr (Finset.mem_Ico.mp member).1 base]
    · rw [if_neg base, if_pos (Finset.mem_Ico.mpr ⟨Nat.le_of_not_lt base, busy.1⟩)]

end Shaped

end IpaTable

end VendorModules.IpaNat
