import VendorModules.HwFence.Finite

namespace VendorModules.HwFence

open DriverData

/-! `hw_fence_process_fence_array`. -/

/-- A fence of the array: what it is looked up by, and what `dma_fence_is_signaled` says before and
in the search, when it is processed and when it is cleaned up. -/
structure ChildFence where
  triple : Triple
  nested : Bool
  enabled : Bool
  error : BitVec 32
  asked : Bool × (Nat → Bool)
  askedLater : Bool × (Nat → Bool)

/-- `hasFences` tells whether the pointer to the fences is set, `fences` what it points to. -/
structure FenceArray where
  base : Triple
  numFences : Nat
  hasFences : Bool
  fences : Nat → Option ChildFence

inductive Walk
  | finished (data : DriverData) (signalJoinFence : Bool)
  | failed (data : DriverData) (i : Nat)

def Walk.data : Walk → DriverData
  | finished data _ => data
  | failed data _ => data

/-- The loop over the parents in `_cleanup_join_and_child_fences`, from the `j`-th down. -/
def MsmHwFence.cleanParents (join : BitVec 64) : Nat → MsmHwFence → MsmHwFence
  | 0, hwFence => hwFence
  | j + 1, hwFence =>
    cleanParents join j (if hwFence.parentList[j]? = some join then
      { hwFence with
        parentList := hwFence.parentList.set j invalidParentFence
        parentsCnt := hwFence.parentsCnt - 1 }
    else hwFence)

namespace DriverData

/-- The table after `hw_fence_put_and_unlock`, which may fail. -/
def put (data : DriverData) (hash : Nat) : DriverData := (data.putAndUnlock hash).getD data

/-- `_update_and_get_join_fence_signal_status` -/
def signalJoin (data : DriverData) (join : Nat) (childError : BitVec 32) : DriverData × Bool :=
  let joinFence := data.hwFencesTbl join
  let pendingChildCnt := if joinFence.pendingChildCnt ≠ 0 then joinFence.pendingChildCnt - 1 else 0
  (data.store join { joinFence with error := joinFence.error ||| childError, pendingChildCnt },
    pendingChildCnt = 0)

def addParent (data : DriverData) (join hash : Nat) : Option DriverData :=
  let hwFence := data.hwFencesTbl hash
  if maxJoinParents ≤ hwFence.parentsCnt + 1 then none
  else some (data.store hash { hwFence with
    parentsCnt := hwFence.parentsCnt + 1
    parentList := hwFence.parentList.set hwFence.parentsCnt (BitVec.ofNat 64 join) })

def processChildren (size : Size) (join : Nat) (fences : Nat → Option ChildFence) :
    Nat → Nat → DriverData → Bool → Walk
  | 0, _, data, signalJoinFence => .finished data signalJoinFence
  | left + 1, i, data, signalJoinFence =>
    match fences i with
    | none => .failed data i
    | some child =>
      if child.nested ∨ child.enabled = false then .failed data i
      else
        match data.findWithDmaFence size child.triple false child.asked.1 child.asked.2 with
        | (data, .signaled) =>
          let (data, signalJoinFence) := data.signalJoin join child.error
          processChildren size join fences left (i + 1) data signalJoinFence
        | (data, .missing) => .failed data i
        | (data, .backed hash) =>
          if (data.hwFencesTbl hash).signal then
            let (data, signalJoinFence) := data.signalJoin join (data.hwFencesTbl hash).error
            processChildren size join fences left (i + 1) (data.put hash) signalJoinFence
          else
            match data.addParent join hash with
            | none => .failed (data.put hash) i
            | some data =>
              processChildren size join fences left (i + 1) (data.put hash) signalJoinFence

def cleanupChild (size : Size) (join : Nat) (data : DriverData) :
    Option ChildFence → DriverData
  | none => data
  | some child =>
    match data.findWithDmaFence size child.triple false child.askedLater.1 child.askedLater.2 with
    | (data, .backed hash) =>
      let hwFence := data.hwFencesTbl hash
      (data.store hash (hwFence.cleanParents (BitVec.ofNat 64 join)
        (min hwFence.parentsCnt maxJoinParents))).put hash
    | (data, _) => data

def cleanupChildren (size : Size) (join : Nat) (fences : Nat → Option ChildFence) :
    Nat → DriverData → DriverData
  | 0, data => data.cleanupChild size join (fences 0)
  | idx + 1, data =>
    cleanupChildren size join fences idx (data.cleanupChild size join (fences (idx + 1)))

/-- `_cleanup_join_and_child_fences` -/
def cleanupJoinAndChildFences (size : Size) (data : DriverData) (iteration : Nat)
    (array : FenceArray) (join : Nat) : DriverData :=
  let data :=
    if array.hasFences then data.cleanupChildren size join array.fences iteration else data
  (data.destroyRefcount size (BitVec.ofNat 64 join) fctlRefcount).getD data

/-- Whether `hw_fence_process_fence_array` returns an error, and the table it leaves, where it does.
`clientBit` is the bit of the client, `badData` says that client data is given by a client that
has none. What follows the loop when the join fence is to be signaled is left out. -/
def processFenceArray (size : Size) (data : DriverData) (clientBit : BitVec 64) (badData : Bool)
    (array : FenceArray) : Bool × DriverData :=
  if badData then (true, data)
  else
    match data.lookupAndCreate size (BitVec.allOnes 32) array.base
        (BitVec.ofNat 32 array.numFences) false with
    | (data, none) => (true, data)
    | (data, some join) =>
      let joinFence := data.hwFencesTbl join
      let data := data.store join
        { joinFence with waitClientMask := joinFence.waitClientMask ||| clientBit }
      match data.processChildren size join array.fences array.numFences 0 false with
      | .failed data i => (true, data.cleanupJoinAndChildFences size i array join)
      | .finished data signalJoinFence =>
        if signalJoinFence then (false, data)
        else if array.numFences = 0 then (true, data.cleanupJoinAndChildFences size 0 array join)
        else (false, data)

end DriverData

def MsmHwFence.parents (hwFence : MsmHwFence) : List (BitVec 64) :=
  hwFence.parentList.take hwFence.parentsCnt

structure Restored (size : Size) (data data' : DriverData) : Prop where
  parents : ∀ i < size.cnt, (data.hwFencesTbl i).valid = true →
    (data'.hwFencesTbl i).parents = (data.hwFencesTbl i).parents
  refcount : ∀ i < size.cnt, (data.hwFencesTbl i).valid = true →
    (data'.hwFencesTbl i).refcount = (data.hwFencesTbl i).refcount
  free : ∀ i < size.cnt, (data.hwFencesTbl i).valid = false → (data'.hwFencesTbl i).valid = false

/-- A join fence is reserved: the client data is accepted, and the first slot that ends the search
for one is free. -/
def Reserves (size : Size) (data : DriverData) (badData : Bool) (array : FenceArray) : Prop :=
  badData = false ∧ ∃ join < size.cnt, (data.hwFencesTbl join).valid = false ∧
    ∀ i < size.cnt, Before size array.base i join → data.stopsCreation array.base i = false

/-! ## The references to the join fence -/

structure Held (join n : Nat) (data : DriverData) : Prop where
  valid : (data.hwFencesTbl join).valid = true
  refs : n ≤ (data.hwFencesTbl join).refcount.toNat % 2 ^ 30

theorem and_hlosRefcountMask (x : BitVec 32) :
    (x &&& hlosRefcountMask).toNat = x.toNat % 2 ^ 30 := by
  rw [BitVec.toNat_and]
  exact Nat.and_two_pow_sub_one_eq_mod x.toNat 30

section

variable {size : Size} {join hash n : Nat} {data data' : DriverData}

theorem Held.mono (held : Held join n data) {k : Nat} (fewer : k ≤ n) : Held join k data :=
  ⟨held.valid, Nat.le_trans fewer held.refs⟩

theorem Held.store (held : Held join n data) {hwFence : MsmHwFence} {k : Nat}
    (same : hash ≠ join → k ≤ n)
    (here : hash = join → hwFence.valid = true ∧ k ≤ hwFence.refcount.toNat % 2 ^ 30) :
    Held join k (data.store hash hwFence) := by
  by_cases place : hash = join
  · obtain ⟨valid, refs⟩ := here place
    subst place
    exact ⟨by simpa [DriverData.store] using valid, by simpa [DriverData.store] using refs⟩
  · have kept : (data.store hash hwFence).hwFencesTbl join = data.hwFencesTbl join :=
      Function.update_of_ne (Ne.symm place) _ _
    exact ⟨kept ▸ held.valid, kept ▸ Nat.le_trans (same place) held.refs⟩

theorem Held.edit (held : Held join n data) {hwFence : MsmHwFence}
    (valid : hwFence.valid = (data.hwFencesTbl hash).valid)
    (refs : hwFence.refcount = (data.hwFencesTbl hash).refcount) :
    Held join n (data.store hash hwFence) :=
  held.store (fun _ => Nat.le_refl n) fun place => by
    subst place
    exact ⟨valid ▸ held.valid, refs ▸ held.refs⟩

theorem Held.found (held : Held join n data) (found : data.fenceFound hash = some data') :
    Held join (if hash = join then n + 1 else n) data' := by
  simp only [DriverData.fenceFound] at found
  split at found
  · cases found
  · next room =>
    obtain rfl := Option.some.inj found
    refine held.store (fun other => Nat.le_of_eq (if_neg other)) fun place => ?_
    subst place
    have small := (data.hwFencesTbl hash).refcount.isLt
    have fits : (data.hwFencesTbl hash).refcount.toNat % 2 ^ 30 ≠ 2 ^ 30 - 1 := fun full =>
      room (BitVec.eq_of_toNat_eq ((and_hlosRefcountMask _).trans full))
    have refs := held.refs
    refine ⟨held.valid, ?_⟩
    rw [if_pos rfl, BitVec.toNat_add, show (1 : BitVec 32).toNat = 1 from rfl]
    omega

theorem ne_zero_of_refs {x : BitVec 32} (refs : 0 < x.toNat % 2 ^ 30) : x ≠ 0 := by
  rintro rfl
  exact absurd refs (by decide)

theorem Held.put (held : Held join (if hash = join then 2 else 1) data) :
    Held join 1 (data.put hash) := by
  have one : Held join 1 data := held.mono (by split <;> decide)
  rw [DriverData.put, DriverData.putAndUnlock]
  split
  · refine one.store (fun _ => Nat.le_refl 1) fun place => ?_
    subst place
    have refs := held.refs
    rw [if_pos rfl] at refs
    have small := (data.hwFencesTbl hash).refcount.isLt
    have left : 1 ≤ ((data.hwFencesTbl hash).refcount - 1).toNat % 2 ^ 30 := by
      rw [BitVec.toNat_sub, show (1 : BitVec 32).toNat = 1 from rfl]
      omega
    simp only [MsmHwFence.released, if_neg (ne_zero_of_refs left)]
    exact ⟨held.valid, left⟩
  · exact one

theorem Held.destroyRefcount (held : Held join 1 data) :
    Held join 1 ((data.destroyRefcount size (BitVec.ofNat 64 join) fctlRefcount).getD data) := by
  simp only [DriverData.destroyRefcount]
  split
  · exact held
  · split
    · refine held.store (fun _ => Nat.le_refl 1) fun place => ?_
      rw [place]
      have left : 1 ≤ ((data.hwFencesTbl join).refcount &&& ~~~fctlRefcount).toNat % 2 ^ 30 := by
        have same : (data.hwFencesTbl join).refcount &&& ~~~fctlRefcount &&& hlosRefcountMask =
            (data.hwFencesTbl join).refcount &&& hlosRefcountMask := by
          rw [BitVec.and_assoc, show ~~~fctlRefcount &&& hlosRefcountMask = hlosRefcountMask from rfl]
        rw [← and_hlosRefcountMask, same, and_hlosRefcountMask]
        exact held.refs
      simp only [MsmHwFence.released, if_neg (ne_zero_of_refs left)]
      exact ⟨held.valid, left⟩
    · exact held

theorem findRanges_found (triple : Triple) (isSignaled : Nat → Bool) (fuel step : Nat)
    (data : DriverData) :
    let found := DriverData.findRanges size triple isSignaled fuel step data
    (∀ hash, found.2 = .backed hash → data.fenceFound hash = some found.1) ∧
      ((∀ hash, found.2 ≠ .backed hash) → found.1 = data) := by
  induction fuel generalizing step with
  | zero => simp [DriverData.findRanges]
  | succ fuel ih =>
    simp only [DriverData.findRanges]
    split
    · simp only [DriverData.lookupAndProcessRange]
      split
      · next data' hash processed =>
        split at processed
        · simp at processed
        · split at processed
          · next taken =>
            obtain ⟨rfl, same⟩ := Prod.mk.inj processed
            obtain rfl := Option.some.inj same
            simpa using taken
          · simp at processed
      · next data' processed =>
        obtain rfl : data = data' := by
          split at processed
          · exact (Prod.mk.inj processed).1
          · split at processed
            · simp at processed
            · exact (Prod.mk.inj processed).1
        split
        · simp
        · exact ih _
    · simp

theorem findWithDmaFence_found (triple : Triple) (asked : Bool × (Nat → Bool)) (data : DriverData) :
    let found := data.findWithDmaFence size triple false asked.1 asked.2
    (∀ hash, found.2 = .backed hash → data.fenceFound hash = some found.1) ∧
      ((∀ hash, found.2 ≠ .backed hash) → found.1 = data) := by
  simp only [DriverData.findWithDmaFence]
  split
  · simp
  · exact findRanges_found triple asked.2 size.cnt 0 data

theorem Held.signalJoin (held : Held join n data) (childError : BitVec 32) :
    Held join n (data.signalJoin join childError).1 := held.edit rfl rfl

theorem Held.addParent (held : Held join n data) (added : data.addParent join hash = some data') :
    Held join n data' := by
  simp only [DriverData.addParent] at added
  split at added
  · cases added
  · obtain rfl := Option.some.inj added
    exact held.edit rfl rfl

theorem Held.processChildren (held : Held join 1 data) (fences : Nat → Option ChildFence)
    (left i : Nat) (signalJoinFence : Bool) :
    Held join 1 (data.processChildren size join fences left i signalJoinFence).data := by
  induction left generalizing i data signalJoinFence with
  | zero => exact held
  | succ left ih =>
    rw [DriverData.processChildren]
    cases fences i with
    | none => exact held
    | some child =>
      simp only
      split
      · exact held
      · have searched := @findWithDmaFence_found size child.triple child.asked data
        cases result : data.findWithDmaFence size child.triple false child.asked.1 child.asked.2 with
        | mk data' search =>
          rw [result] at searched
          cases search with
          | signaled =>
            obtain rfl := searched.2 (by simp)
            exact ih (held.signalJoin _) _ _
          | missing =>
            obtain rfl := searched.2 (by simp)
            exact held
          | backed hash =>
            have taken := held.found (searched.1 hash rfl)
            simp only
            split
            · exact ih (taken.signalJoin _).put _ _
            · cases added : data'.addParent join hash with
              | none => exact taken.put
              | some data'' => exact ih (taken.addParent added).put _ _

theorem cleanParents_refs (join : BitVec 64) (j : Nat) (hwFence : MsmHwFence) :
    (hwFence.cleanParents join j).valid = hwFence.valid ∧
      (hwFence.cleanParents join j).refcount = hwFence.refcount := by
  induction j generalizing hwFence with
  | zero => exact ⟨rfl, rfl⟩
  | succ j ih =>
    rw [MsmHwFence.cleanParents]
    split
    · exact ih _
    · exact ih _

theorem Held.cleanupChild (held : Held join 1 data) (child : Option ChildFence) :
    Held join 1 (data.cleanupChild size join child) := by
  cases child with
  | none => exact held
  | some child =>
    have searched := @findWithDmaFence_found size child.triple child.askedLater data
    rw [DriverData.cleanupChild]
    cases result :
        data.findWithDmaFence size child.triple false child.askedLater.1 child.askedLater.2 with
    | mk data' search =>
      rw [result] at searched
      cases search with
      | signaled | missing =>
        obtain rfl := searched.2 (by simp)
        exact held
      | backed hash =>
        have same := cleanParents_refs (BitVec.ofNat 64 join)
          (min (data'.hwFencesTbl hash).parentsCnt maxJoinParents) (data'.hwFencesTbl hash)
        exact ((held.found (searched.1 hash rfl)).edit same.1 same.2).put

theorem Held.cleanup (held : Held join 1 data) (iteration : Nat) (array : FenceArray) :
    Held join 1 (data.cleanupJoinAndChildFences size iteration array join) := by
  refine Held.destroyRefcount ?_
  split
  · induction iteration generalizing data with
    | zero => exact held.cleanupChild _
    | succ idx ih => exact ih (held.cleanupChild _)
  · exact held

end

theorem lookupAndCreate_reserves (size : Size) (data : DriverData) (array : FenceArray) :
    let made := data.lookupAndCreate size (BitVec.allOnes 32) array.base
      (BitVec.ofNat 32 array.numFences) false
    (¬ Reserves size data false array ∧ made = (data, none)) ∨
      (Reserves size data false array ∧ ∃ join < size.cnt, (data.hwFencesTbl join).valid = false ∧
        made = (data.reserve (BitVec.allOnes 32) array.base (BitVec.ofNat 32 array.numFences) join,
          some join)) := by
  have free_stops : ∀ i, (data.hwFencesTbl i).valid = false →
      data.stopsCreation array.base i = true := fun i free => by simp [stopsCreation, free]
  have created := lookupAndCreate_created size data (BitVec.allOnes 32) array.base
    (BitVec.ofNat 32 array.numFences) false
  generalize data.lookupAndCreate size (BitVec.allOnes 32) array.base
    (BitVec.ofNat 32 array.numFences) false = made at created ⊢
  obtain ⟨data', slot⟩ := made
  dsimp only at created ⊢
  cases created with
  | full none_stops =>
    refine .inl ⟨?_, rfl⟩
    rintro ⟨_, join, inside, free, _⟩
    exact absurd (free_stops join free) (by simp [none_stops join inside])
  | exists_ hash inside holds first =>
    refine .inl ⟨?_, rfl⟩
    rintro ⟨_, join, inside', free, first'⟩
    obtain ⟨valid, matching⟩ := holds_iff.1 holds
    have differs : join ≠ hash := by
      rintro rfl
      exact absurd valid (by simp [free])
    rcases before_or size array.base inside' inside differs with before | before
    · exact absurd (free_stops join free) (by simp [first join inside' before])
    · have stops : data.stopsCreation array.base hash = true := by
        simp [stopsCreation, matching]
      exact absurd stops (by simp [first' hash inside before])
  | shared _ _ _ asked => cases asked
  | reserved join inside free first =>
    exact .inr ⟨⟨rfl, join, inside, free, first⟩, join, inside, free, rfl⟩

theorem Held.reserve (join : Nat) (data : DriverData) (clientId : BitVec 32) (triple : Triple)
    (pendingChildCnt : BitVec 32) :
    Held join 1 (data.reserve clientId triple pendingChildCnt join) :=
  ⟨by simp [DriverData.reserve, DriverData.store, DriverData.storeKey],
    by simp [DriverData.reserve, DriverData.store, DriverData.storeKey, fctlRefcount]⟩

/-- An error undoes what was done exactly if no join fence was reserved. -/
theorem restored_iff (size : Size) (data : DriverData) (clientBit : BitVec 64) (badData : Bool)
    (array : FenceArray) (failed : (data.processFenceArray size clientBit badData array).1 = true) :
    Restored size data (data.processFenceArray size clientBit badData array).2 ↔
      ¬ Reserves size data badData array := by
  have untouched : Restored size data data := ⟨by simp, by simp, by simp⟩
  cases badData with
  | true => exact iff_of_true untouched fun reserves => by simp [Reserves] at reserves
  | false =>
    simp only [processFenceArray, Bool.false_eq_true, if_false] at failed ⊢
    rcases lookupAndCreate_reserves size data array with
      ⟨none, made⟩ | ⟨reserves, join, inside, free, made⟩
    · rw [made]
      exact iff_of_true untouched none
    refine iff_of_false (fun restored => ?_) (not_not.2 reserves)
    rw [made] at failed restored
    have start := Held.reserve join data (BitVec.allOnes 32) array.base
      (BitVec.ofNat 32 array.numFences)
    dsimp only at failed restored
    set taken := (data.reserve (BitVec.allOnes 32) array.base (BitVec.ofNat 32 array.numFences)
      join).store join _ with shape
    have held : Held join 1 taken := start.edit rfl rfl
    have walked := @Held.processChildren size join taken held array.fences array.numFences 0 false
    have kept : ∀ data' i, Held join 1 data' → ¬ Restored size data
        (data'.cleanupJoinAndChildFences size i array join) := fun data' i held restored => by
      have valid := (@Held.cleanup size join data' held i array).valid
      rw [restored.free join inside free] at valid
      cases valid
    cases result : taken.processChildren size join array.fences array.numFences 0 false with
    | failed data' i =>
      rw [result] at restored walked
      exact kept data' i walked restored
    | finished data' signalJoinFence =>
      rw [result] at restored walked failed
      cases signalJoinFence with
      | true => simp at failed
      | false =>
        by_cases empty : array.numFences = 0
        · simp only [Bool.false_eq_true, if_false, if_pos empty] at restored
          exact kept data' 0 walked restored
        · simp [empty] at failed

def nullChild : FenceArray where
  base := ⟨1, 1, 100⟩
  numFences := 1
  hasFences := true
  fences := fun _ => none

theorem restored_iff_nullChild :
    (DriverData.init.processFenceArray four 1 false nullChild).1 = true ∧
      (Restored four .init (DriverData.init.processFenceArray four 1 false nullChild).2 ↔
        ¬ Reserves four .init false nullChild) :=
  ⟨by decide +kernel, restored_iff four .init 1 false nullChild (by decide +kernel)⟩

/-- The join fence's slot stays taken. -/
theorem not_restored_nullChild :
    (DriverData.init.processFenceArray four 1 false nullChild).1 = true ∧
      ¬ Restored four .init (DriverData.init.processFenceArray four 1 false nullChild).2 := by
  refine ⟨by decide +kernel, fun restored => ?_⟩
  have free := restored.free 0 (by decide) rfl
  revert free
  decide +kernel

end VendorModules.HwFence
