import Mathlib.Data.List.Induction
import VendorModules.Lib.Slots
import VendorModules.Synx.Global

namespace VendorModules.Synx

open Function Lib

/-! A merge that stops, and the status an index is given, with all locks to be had. -/

abbrev GlobalTable := Nat → Coredata

inductive GlobalRc
  | success
  | invalid
  | nomem
  | already
  deriving DecidableEq, Repr

/-- Where the loop of `synx_global_merge` ends, with the error code if it goes to `fail`. -/
structure MergeEnd where
  table : GlobalTable
  numChild : Nat
  parentStatus : Nat
  failed : Option GlobalRc

/-- The loop of `synx_global_merge`. Once a lock was got, the error code is that of success. -/
def mergeLoop (pIdx : Nat) : List Nat → GlobalTable → Nat → Nat → GlobalRc → MergeEnd
  | [], table, numChild, parentStatus, _ => ⟨table, numChild, parentStatus, none⟩
  | idx :: idxList, table, numChild, parentStatus, rc =>
    if isValidIdx idx then
      let obj := table idx
      let linked := update table idx (linkParent obj pIdx)
      let numChild := countMember numChild obj
      let parentStatus := statusWith parentStatus obj
      if hasFreeSlot obj then mergeLoop pIdx idxList linked numChild parentStatus .success
      else ⟨linked, numChild, parentStatus, some .nomem⟩
    else ⟨table, numChild, parentStatus, some rc⟩

/-- The loop behind `fail`, which begins with the last of the indexes. -/
def rollBack (pIdx : Nat) (idxList : List Nat) (table : GlobalTable) : GlobalTable :=
  idxList.reverse.foldl (fun table idx => update table idx (unlinkParent (table idx) pIdx)) table

/-- `synx_global_merge` -/
def globalMerge (table : GlobalTable) (idxList : List Nat) (pIdx : Nat) :
    GlobalRc × GlobalTable :=
  if isValidIdx pIdx then
    if idxList = [] then (.success, table)
    else
      let done := mergeLoop pIdx idxList table 0 SYNX_STATE_ACTIVE .invalid
      match done.failed with
      | none =>
        (.success, update done.table pIdx (addChildren (done.table pIdx)
          ⟨pIdx, idxList, [], done.numChild, done.parentStatus⟩))
      | some rc => (rc, rollBack pIdx (idxList.take done.numChild) done.table)
  else (.invalid, table)

/-- `synx_global_update_status_core`, which returns once the parents have been told. -/
def updateStatusCore : Nat → GlobalTable → Nat → Nat → Option GlobalTable
  | 0, _, _, _ => none
  | fuel + 1, table, idx, status =>
    let signaled := updateStatusLocked (table idx) status
    (signaled.hParents.filter (· ≠ 0)).foldlM
      (fun table pIdx => updateStatusCore fuel table pIdx status)
      (update table idx signaled.obj)

/-- `synx_global_update_status`. For a composite it returns what the lock returned. -/
def globalUpdateStatus (fuel : Nat) (table : GlobalTable) (idx status : Nat) :
    Option (GlobalRc × GlobalTable) :=
  if isValidIdx idx ∧ SYNX_STATE_ACTIVE < status then
    match updateStatusCheck (table idx) with
    | .invalid => some (.success, table)
    | .already => some (.already, table)
    | .proceed => (updateStatusCore fuel table idx status).map fun table => (.success, table)
  else some (.invalid, table)

/-! ### What is asked of them -/

def MergeCompletes (table : GlobalTable) (idxList : List Nat) (pIdx : Nat) : Prop :=
  isValidIdx pIdx = true ∧
    (mergeLoop pIdx idxList table 0 SYNX_STATE_ACTIVE .invalid).failed = none

def MergeRestores (table : GlobalTable) (idxList : List Nat) (pIdx : Nat) : Prop :=
  ¬MergeCompletes table idxList pIdx →
    (globalMerge table idxList pIdx).1 ≠ .success ∧ (globalMerge table idxList pIdx).2 = table

def UpdateTells (table : GlobalTable) (idx status : Nat) : Prop :=
  ∀ fuel table', globalUpdateStatus fuel table idx status = some (.success, table') →
    (table' idx).status ≠ (table idx).status

def Coredata.counts (obj : Coredata) : Bool := obj.status = SYNX_STATE_ACTIVE ∨ obj.numChild ≠ 0

def children (table : GlobalTable) (idxList : List Nat) : Nat :=
  idxList.countP fun idx => (table idx).counts

/-- After the members before it, there is a slot left in the entry. A parent with the index of a
free slot takes none. -/
def Links (table : GlobalTable) (pIdx : Nat) (before : List Nat) (idx : Nat) : Prop :=
  isValidIdx idx = true ∧
    (if pIdx = 0 then 0 else before.count idx) < (table idx).parents.slots.count 0

structure StopsAt (table : GlobalTable) (pIdx : Nat) (idxList before : List Nat) (idx : Nat) :
    Prop where
  split : ∃ after, idxList = before ++ idx :: after
  links : ∀ first i rest, before = first ++ i :: rest → Links table pIdx first i
  stops : ¬Links table pIdx before idx

/-- The members whose parent is cleared again: as many as count as children, the one that stopped
the merge among them, from the first on. -/
def givenBack (table : GlobalTable) (before : List Nat) (idx : Nat) : List Nat :=
  let seen := if isValidIdx idx then before ++ [idx] else before
  seen.take (children table seen)

/-- The merge stops at its first member or at a full one, and what is cleared again is what was
linked, in the slots that come first. -/
structure Recovers (table : GlobalTable) (pIdx : Nat) (before : List Nat) (idx : Nat) :
    Prop where
  errs : before = [] ∨ isValidIdx idx = true
  cleared : ∀ i, pIdx = 0 ∨
    (pIdx ∉ (table i).parents.slots ∧ before.count i ≤ (givenBack table before idx).count i) ∨
    (pIdx ∈ (table i).parents.slots ∧ (givenBack table before idx).count i = before.count i ∧
      before.count i ≤ freeBefore 0 pIdx (table i).parents.slots)

/-! ### Links that are written and cleared -/

variable {table : GlobalTable} {pIdx idx : Nat}

def Coredata.refilled (obj : Coredata) (old new count : Nat) : Coredata :=
  { obj with
    parents := ⟨refill old new count obj.parents.slots,
      (length_refill obj.parents.slots).trans obj.parents.size⟩ }

theorem iterate_linkParent (count : Nat) (obj : Coredata) :
    (fun obj => linkParent obj pIdx)^[count] obj = obj.refilled 0 pIdx count := by
  induction count generalizing obj with
  | zero => rfl
  | succ count ih =>
    rw [iterate_succ_apply, ih]
    rfl

theorem iterate_unlinkParent (count : Nat) (obj : Coredata) :
    (fun obj => unlinkParent obj pIdx)^[count] obj = obj.refilled pIdx 0 count := by
  induction count generalizing obj with
  | zero => rfl
  | succ count ih =>
    rw [iterate_succ_apply, ih]
    rfl

theorem refilled_eq_self_iff {obj : Coredata} {old new old' new' count count' : Nat} :
    (obj.refilled old new count).refilled old' new' count' = obj ↔
      refill old' new' count' (refill old new count obj.parents.slots) = obj.parents.slots := by
  constructor
  · intro same
    exact congrArg (·.parents.slots) same
  · intro same
    obtain ⟨status, handle, refcount, numChild, subscribers, waiters, slots, size⟩ := obj
    unfold Coredata.refilled
    dsimp only at same ⊢
    congr

def linkAll (table : GlobalTable) (pIdx : Nat) (members : List Nat) : GlobalTable :=
  members.foldl (fun table idx => update table idx (linkParent (table idx) pIdx)) table

theorem linkAll_apply (members : List Nat) (i : Nat) :
    linkAll table pIdx members i = (table i).refilled 0 pIdx (members.count i) := by
  rw [linkAll, foldl_update_apply fun obj => linkParent obj pIdx, iterate_linkParent]

theorem linkAll_concat (members : List Nat) (i : Nat) :
    linkAll table pIdx (members ++ [i]) =
      update (linkAll table pIdx members) i (linkParent (linkAll table pIdx members i) pIdx) := by
  rw [linkAll, List.foldl_append]
  rfl

theorem rollBack_apply (members : List Nat) (i : Nat) :
    rollBack pIdx members table i = (table i).refilled pIdx 0 (members.count i) := by
  rw [rollBack, foldl_update_apply fun obj => unlinkParent obj pIdx, iterate_unlinkParent,
    List.count_reverse]

theorem hasFreeSlot_linkAll (members : List Nat) (i : Nat) :
    hasFreeSlot (linkAll table pIdx members i) = true ↔
      (if pIdx = 0 then 0 else members.count i) < (table i).parents.slots.count 0 := by
  rw [linkAll_apply, hasFreeSlot, List.contains_iff_mem, ← List.count_pos_iff]
  unfold Coredata.refilled
  dsimp only
  split
  · rename_i zero
    rw [zero, refill_self]
  · rename_i different
    rw [count_refill different]
    omega

theorem links_iff (members : List Nat) (i : Nat) :
    Links table pIdx members i ↔
      isValidIdx i = true ∧ hasFreeSlot (linkAll table pIdx members i) = true := by
  rw [hasFreeSlot_linkAll]
  rfl

theorem count_le_of_links {before : List Nat} (different : pIdx ≠ 0)
    (links : ∀ first i rest, before = first ++ i :: rest → Links table pIdx first i) (i : Nat) :
    before.count i ≤ (table i).parents.slots.count 0 := by
  induction before using List.reverseRecOn with
  | nil => exact Nat.zero_le _
  | append_singleton before last ih =>
    have few := ih fun first i rest same => links first i (rest ++ [last]) (by
      rw [same, List.append_assoc, List.cons_append])
    rw [List.count_append]
    by_cases here : last = i
    · have room := (links before last [] rfl).2
      rw [if_neg different, here] at room
      rw [here, List.count_singleton_self]
      exact room
    · rw [List.count_singleton, if_neg (by simpa using here)]
      exact few

/-! ### Where the loop stops -/

theorem countMember_counts (numChild : Nat) (obj : Coredata) :
    countMember numChild obj = numChild + if obj.counts then 1 else 0 := by
  unfold countMember Coredata.counts
  by_cases active : obj.status = SYNX_STATE_ACTIVE
  · simp [active]
  · by_cases composite : obj.numChild = 0
    · simp [active, composite]
    · simp [active, composite]

theorem counts_linkAll (members : List Nat) (i : Nat) :
    (linkAll table pIdx members i).counts = (table i).counts := by
  rw [linkAll_apply]
  rfl

theorem children_append (first second : List Nat) :
    children table (first ++ second) = children table first + children table second :=
  List.countP_append

theorem children_singleton (i : Nat) :
    children table [i] = if (table i).counts then 1 else 0 := by
  rw [children, List.countP_singleton]

theorem mergeLoop_links {done : List Nat} {i : Nat} (links : Links table pIdx done i)
    (rest : List Nat) (numChild parentStatus : Nat) (rc : GlobalRc) :
    mergeLoop pIdx (i :: rest) (linkAll table pIdx done) numChild parentStatus rc =
      mergeLoop pIdx rest (linkAll table pIdx (done ++ [i])) (numChild + children table [i])
        (statusWith parentStatus (linkAll table pIdx done i)) .success := by
  obtain ⟨valid, room⟩ := (links_iff done i).1 links
  rw [mergeLoop, if_pos valid, if_pos room, countMember_counts, counts_linkAll, children_singleton,
    linkAll_concat]

theorem mergeLoop_stops {done : List Nat} {i : Nat} (stops : ¬Links table pIdx done i)
    (rest : List Nat) (numChild parentStatus : Nat) (rc : GlobalRc) :
    ∃ parentStatus', mergeLoop pIdx (i :: rest) (linkAll table pIdx done) numChild parentStatus rc =
      ⟨linkAll table pIdx done,
        numChild + children table (if isValidIdx i then [i] else []), parentStatus',
        some (if isValidIdx i then .nomem else rc)⟩ := by
  rw [links_iff] at stops
  rw [mergeLoop]
  by_cases valid : isValidIdx i = true
  · have full : ¬hasFreeSlot (linkAll table pIdx done i) = true := fun room => stops ⟨valid, room⟩
    have same : linkParent (linkAll table pIdx done i) pIdx = linkAll table pIdx done i := by
      have kept : (linkAll table pIdx done i).parents.replace 0 pIdx =
          (linkAll table pIdx done i).parents := by
        rw [hasFreeSlot, List.contains_iff_mem] at full
        unfold Parents.replace
        congr
        exact List.replace_of_not_mem (by simpa using full)
      rw [linkParent, kept]
    simp only [if_pos valid, if_neg full, same, update_eq_self]
    rw [countMember_counts, counts_linkAll, children_singleton]
    exact ⟨_, rfl⟩
  · simp only [if_neg valid]
    exact ⟨_, rfl⟩

theorem mergeLoop_of_links {done before : List Nat}
    (links : ∀ first i rest, before = first ++ i :: rest → Links table pIdx (done ++ first) i)
    (rest : List Nat) (numChild parentStatus : Nat) (rc : GlobalRc) :
    ∃ parentStatus',
      mergeLoop pIdx (before ++ rest) (linkAll table pIdx done) numChild parentStatus rc =
        mergeLoop pIdx rest (linkAll table pIdx (done ++ before))
          (numChild + children table before) parentStatus'
          (if before = [] then rc else .success) := by
  induction before generalizing done numChild parentStatus rc with
  | nil =>
    rw [List.nil_append, List.append_nil]
    exact ⟨parentStatus, rfl⟩
  | cons i before ih =>
    have first := links [] i before rfl
    rw [List.append_nil] at first
    obtain ⟨parentStatus', passed⟩ := @ih (done ++ [i]) (fun first j rest same => by
      have next := links (i :: first) j rest (by rw [same]; rfl)
      rwa [List.append_cons] at next) (numChild + children table [i])
      (statusWith parentStatus (linkAll table pIdx done i)) .success
    refine ⟨parentStatus', ?_⟩
    rw [List.cons_append, mergeLoop_links first, passed, ite_self, List.append_assoc,
      List.singleton_append, if_neg (List.cons_ne_nil i before), Nat.add_assoc,
      ← children_append, List.singleton_append]

variable {idxList before : List Nat}

theorem links_or_stopsAt (table : GlobalTable) (pIdx : Nat) (idxList : List Nat) :
    (∀ first i rest, idxList = first ++ i :: rest → Links table pIdx first i) ∨
      ∃ before idx, StopsAt table pIdx idxList before idx := by
  induction idxList using List.reverseRecOn with
  | nil =>
    refine .inl fun first i rest same => ?_
    simp at same
  | append_singleton idxList last ih =>
    rcases ih with links | ⟨before, idx, ⟨after, split⟩, links, stops⟩
    · by_cases room : Links table pIdx idxList last
      · refine .inl fun first i rest same => ?_
        rcases List.eq_nil_or_concat rest with rfl | ⟨rest, j, rfl⟩
        · obtain ⟨rfl, rfl⟩ := List.append_inj' same rfl |>.imp id List.singleton_inj.1
          exact room
        · rw [List.concat_eq_append, ← List.cons_append, ← List.append_assoc] at same
          exact links first i rest (List.append_inj' same rfl).1
      · exact .inr ⟨idxList, last, ⟨[], rfl⟩, links, room⟩
    · refine .inr ⟨before, idx, ⟨after ++ [last], ?_⟩, links, stops⟩
      rw [split, List.append_assoc, List.cons_append]

theorem mergeLoop_of_stopsAt (stops : StopsAt table pIdx idxList before idx) :
    ∃ parentStatus, mergeLoop pIdx idxList table 0 SYNX_STATE_ACTIVE .invalid =
      ⟨linkAll table pIdx before,
        children table (if isValidIdx idx then before ++ [idx] else before), parentStatus,
        some (if isValidIdx idx then .nomem else if before = [] then .invalid else .success)⟩ := by
  obtain ⟨⟨after, split⟩, links, stop⟩ := stops
  obtain ⟨reached, passed⟩ := @mergeLoop_of_links table pIdx [] before links (idx :: after) 0
    SYNX_STATE_ACTIVE .invalid
  obtain ⟨left, stopped⟩ := mergeLoop_stops stop after (0 + children table before) reached
    (if before = [] then .invalid else .success)
  refine ⟨left, ?_⟩
  rw [split]
  refine (passed.trans stopped).trans ?_
  split
  · rw [Nat.zero_add, ← children_append]
  · rw [Nat.zero_add]
    rfl

theorem globalMerge_of_stopsAt (valid : isValidIdx pIdx = true)
    (stops : StopsAt table pIdx idxList before idx) :
    ¬MergeCompletes table idxList pIdx ∧
      globalMerge table idxList pIdx =
        (if isValidIdx idx then .nomem else if before = [] then .invalid else .success,
          rollBack pIdx (givenBack table before idx) (linkAll table pIdx before)) := by
  obtain ⟨parentStatus, loop⟩ := mergeLoop_of_stopsAt stops
  obtain ⟨after, split⟩ := stops.split
  constructor
  · rintro ⟨-, completes⟩
    rw [loop] at completes
    cases completes
  · have some_members : idxList ≠ [] := by
      rw [split]
      exact List.append_ne_nil_of_right_ne_nil _ (List.cons_ne_nil _ _)
    have cleared : idxList.take (children table
        (if isValidIdx idx then before ++ [idx] else before)) = givenBack table before idx := by
      have short : children table (if isValidIdx idx then before ++ [idx] else before) ≤
          (if isValidIdx idx then before ++ [idx] else before).length := List.countP_le_length
      have whole : idxList = (if isValidIdx idx then before ++ [idx] else before) ++
          (if isValidIdx idx then after else idx :: after) := by
        rw [split]
        split
        · rw [List.append_assoc, List.singleton_append]
        · rfl
      rw [givenBack]
      conv_lhs => rw [whole]
      rw [List.take_append_of_le_length short]
    rw [globalMerge, if_pos valid, if_neg some_members, loop]
    dsimp only
    rw [cleared]

theorem mergeCompletes_of_links (valid : isValidIdx pIdx = true)
    (links : ∀ first i rest, idxList = first ++ i :: rest → Links table pIdx first i) :
    MergeCompletes table idxList pIdx := by
  obtain ⟨reached, passed⟩ := @mergeLoop_of_links table pIdx [] idxList links [] 0
    SYNX_STATE_ACTIVE .invalid
  rw [List.append_nil] at passed
  refine ⟨valid, ?_⟩
  have ended := congrArg MergeEnd.failed passed
  exact ended

theorem recovers_iff (valid : isValidIdx pIdx = true)
    (stops : StopsAt table pIdx idxList before idx) :
    (globalMerge table idxList pIdx).1 ≠ .success ∧ (globalMerge table idxList pIdx).2 = table ↔
      Recovers table pIdx before idx := by
  rw [(globalMerge_of_stopsAt valid stops).2]
  have errs : (if isValidIdx idx then GlobalRc.nomem
      else if before = [] then .invalid else .success) ≠ .success ↔
        before = [] ∨ isValidIdx idx = true := by
    by_cases inside : isValidIdx idx = true
    · simp [inside]
    · by_cases first : before = []
      · simp [inside, first]
      · simp [inside, first]
  have same : ∀ i, rollBack pIdx (givenBack table before idx) (linkAll table pIdx before) i =
        table i ↔
      pIdx = 0 ∨
        (pIdx ∉ (table i).parents.slots ∧ before.count i ≤ (givenBack table before idx).count i) ∨
        (pIdx ∈ (table i).parents.slots ∧
          (givenBack table before idx).count i = before.count i ∧
          before.count i ≤ freeBefore 0 pIdx (table i).parents.slots) := by
    intro i
    rw [rollBack_apply, linkAll_apply, refilled_eq_self_iff]
    by_cases different : pIdx = 0
    · rw [different, refill_self, refill_self]
      exact iff_of_true rfl (.inl rfl)
    · rw [refill_refill_eq_self_iff different (count_le_of_links different stops.links i),
        or_iff_right different]
  constructor
  · rintro ⟨failed, kept⟩
    exact ⟨errs.1 failed, fun i => (same i).1 (congrFun kept i)⟩
  · rintro ⟨first, cleared⟩
    exact ⟨errs.2 first, funext fun i => (same i).2 (cleared i)⟩

theorem mergeRestores_iff (table : GlobalTable) (idxList : List Nat) (pIdx : Nat) :
    MergeRestores table idxList pIdx ↔
      (isValidIdx pIdx = true → ∀ before idx, StopsAt table pIdx idxList before idx →
        Recovers table pIdx before idx) := by
  constructor
  · intro restores valid before idx stops
    rw [← recovers_iff valid stops]
    exact restores (globalMerge_of_stopsAt valid stops).1
  · intro recovers incomplete
    by_cases valid : isValidIdx pIdx = true
    · rcases links_or_stopsAt table pIdx idxList with links | ⟨before, idx, stops⟩
      · exact absurd (mergeCompletes_of_links valid links) incomplete
      · exact (recovers_iff valid stops).2 (recovers valid before idx stops)
    · rw [globalMerge, if_neg valid]
      exact ⟨fun same => (nomatch same), rfl⟩

/-! ### The status of an entry -/

def Given (idx status : Nat) (table : GlobalTable) : Prop :=
  (table idx).numChild = 0 ∧ (table idx).status = status

theorem updateStatusLocked_plain {obj : Coredata} (plain : obj.numChild = 0) (status : Nat) :
    (updateStatusLocked obj status).obj.numChild = 0 ∧
      (updateStatusLocked obj status).obj.status = status := by
  unfold updateStatusLocked
  rw [if_neg (not_not.2 plain)]
  exact ⟨plain, rfl⟩

theorem updateStatusCore_given {fuel j status : Nat} {table' : GlobalTable}
    (done : updateStatusCore fuel table j status = some table') :
    (j = idx → (table idx).numChild = 0) → (j ≠ idx → Given idx status table) →
      Given idx status table' := by
  induction fuel generalizing table table' j with
  | zero => cases done
  | succ fuel ih =>
    intro own other
    have locked : Given idx status
        (update table j (updateStatusLocked (table j) status).obj) := by
      by_cases here : j = idx
      · rw [Given, here, update_self]
        exact updateStatusLocked_plain (own here) status
      · rw [Given, update_of_ne (Ne.symm here)]
        exact other here
    unfold updateStatusCore at done
    dsimp only at done
    generalize (updateStatusLocked (table j) status).hParents.filter (· ≠ 0) = parents at done
    generalize update table j (updateStatusLocked (table j) status).obj = told at done locked
    clear own other
    induction parents generalizing told with
    | nil =>
      cases done
      exact locked
    | cons parent parents rest =>
      rw [List.foldlM_cons, Option.bind_eq_bind, Option.bind_eq_some_iff] at done
      obtain ⟨next, first, others⟩ := done
      exact rest next others (ih first (fun _ => locked.1) fun _ => locked)

theorem updateTells_iff (table : GlobalTable) (idx status : Nat) :
    UpdateTells table idx status ↔
      (isValidIdx idx = true → SYNX_STATE_ACTIVE < status → (table idx).numChild = 0) := by
  constructor
  · intro tells valid signals
    by_contra composite
    apply tells 0 table
    · rw [globalUpdateStatus, if_pos ⟨valid, signals⟩, updateStatusCheck, if_pos composite]
    · rfl
  · intro plain fuel table' updated
    rw [globalUpdateStatus] at updated
    split at updated
    · rename_i asked
      have none := plain asked.1 asked.2
      rw [updateStatusCheck, if_neg (not_not.2 none)] at updated
      by_cases active : (table idx).status = SYNX_STATE_ACTIVE
      · rw [if_neg (not_not.2 active)] at updated
        obtain ⟨told, done, same⟩ := Option.map_eq_some_iff.1 updated
        cases same
        have given := updateStatusCore_given done (fun _ => none) fun other => absurd rfl other
        rw [given.2, active]
        exact Nat.ne_of_gt asked.2
      · rw [if_pos active] at updated
        cases updated
    · cases updated

/-- When failed merges are undone, and when a returned success is one. -/
theorem mergeRestores_and_updateTells_iff (table : GlobalTable) (idxList : List Nat)
    (pIdx idx status : Nat) :
    (MergeRestores table idxList pIdx ↔
      (isValidIdx pIdx = true → ∀ before idx, StopsAt table pIdx idxList before idx →
        Recovers table pIdx before idx)) ∧
    (UpdateTells table idx status ↔
      (isValidIdx idx = true → SYNX_STATE_ACTIVE < status → (table idx).numChild = 0)) :=
  ⟨mergeRestores_iff table idxList pIdx, updateTells_iff table idx status⟩

/-- The second index is invalid: success is returned, and the first member is linked to a parent
that was given no child. -/
theorem invalidMember_not_restored :
    ¬((∀ table idxList pIdx, MergeRestores table idxList pIdx) ∧
      ∀ table idx status, UpdateTells table idx status) := by
  rintro ⟨restores, -⟩
  have stops : ¬MergeCompletes (fun _ => .active 1) [1, 4096] 2 := fun completes =>
    absurd completes.2 (by decide)
  exact (restores (fun _ => .active 1) [1, 4096] 2 stops).1 (by decide)

end VendorModules.Synx
