import VendorModules.HwFence.Map

namespace VendorModules.HwFence

open Lib DriverData

variable {size : Size} {data data' : DriverData} {triple : Triple} {hash : Nat}

theorem holds_iff {i : Nat} : data.holds triple i = true ↔
    (data.hwFencesTbl i).valid = true ∧ data.hwFenceMatch triple i = true := by
  simp [holds]

theorem remains_iff {i : Nat} : data.remains triple i = true ↔
    (data.hwFencesTbl i).valid = false ∧ data.hwFenceMatch triple i = true := by
  simp [remains]

theorem stopsCreation_eq_false_iff {i : Nat} : data.stopsCreation triple i = false ↔
    (data.hwFencesTbl i).valid = true ∧ data.hwFenceMatch triple i = false := by
  simp [stopsCreation]

theorem fenceFound_eq_none_iff : data.fenceFound hash = none ↔ data.Saturated hash := by
  unfold DriverData.fenceFound Saturated
  dsimp only
  split
  · simp [*]
  · simp [*]

/-! ### What the calls come to -/

inductive Created (size : Size) (data : DriverData) (clientId : BitVec 32) (triple : Triple)
    (pendingChildCnt : BitVec 32) (createSignaled : Bool) : DriverData → Option Nat → Prop
  | full (none_stops : ∀ i < size.cnt, data.stopsCreation triple i = false) :
      Created size data clientId triple pendingChildCnt createSignaled data none
  | exists_ (hash : Nat) (inside : hash < size.cnt) (holds : data.holds triple hash = true)
      (first : ∀ i < size.cnt, Before size triple i hash → data.stopsCreation triple i = false)
      (refused : createSignaled = true → data.Saturated hash) :
      Created size data clientId triple pendingChildCnt createSignaled data none
  | shared {data' : DriverData} (hash : Nat) (inside : hash < size.cnt)
      (holds : data.holds triple hash = true) (asked : createSignaled = true)
      (found : data.fenceFound hash = some data') :
      Created size data clientId triple pendingChildCnt createSignaled data' (some hash)
  | reserved (hash : Nat) (inside : hash < size.cnt)
      (free : (data.hwFencesTbl hash).valid = false)
      (first : ∀ i < size.cnt, Before size triple i hash → data.stopsCreation triple i = false) :
      Created size data clientId triple pendingChildCnt createSignaled
        (data.reserve clientId triple pendingChildCnt hash) (some hash)

theorem lookupAndCreate_created (size : Size) (data : DriverData) (clientId : BitVec 32)
    (triple : Triple) (pendingChildCnt : BitVec 32) (createSignaled : Bool) :
    Created size data clientId triple pendingChildCnt createSignaled
      (data.lookupAndCreate size clientId triple pendingChildCnt createSignaled).1
      (data.lookupAndCreate size clientId triple pendingChildCnt createSignaled).2 := by
  have home := homeOf_lt size triple
  rw [lookupAndCreate_eq]
  cases found : firstProbe (data.stopsCreation triple) size.cnt size.cnt (homeOf size triple) with
  | none => exact .full ((firstProbe_full_eq_none_iff _ home).mp found)
  | some hash =>
    obtain ⟨inside, stops, first⟩ := (firstProbe_full_eq_some_iff _ home).mp found
    dsimp only
    split
    · rename_i valid
      have holds : data.holds triple hash = true := by
        rw [stopsCreation, valid, Bool.not_true, Bool.false_or] at stops
        exact holds_iff.mpr ⟨valid, stops⟩
      split
      · rename_i asked
        cases shares : data.fenceFound hash with
        | some data' => exact .shared hash inside holds asked shares
        | none => exact .exists_ hash inside holds first fun _ => fenceFound_eq_none_iff.mp shares
      · rename_i plain
        exact .exists_ hash inside holds first fun asked => absurd asked plain
    · rename_i invalid
      exact .reserved hash inside (by simpa using invalid) first

inductive Processed (size : Size) (data : DriverData) (triple : Triple)
    (processFn : DriverData → Nat → Option DriverData) : DriverData → Option Nat → Prop
  | missing (none_matches : ∀ i < size.cnt, data.hwFenceMatch triple i = false) :
      Processed size data triple processFn data none
  | refused (hash : Nat) (inside : hash < size.cnt) (matching : data.hwFenceMatch triple hash = true)
      (first : ∀ i < size.cnt, Before size triple i hash → data.hwFenceMatch triple i = false)
      (fails : processFn data hash = none) : Processed size data triple processFn data none
  | done {data' : DriverData} (hash : Nat) (inside : hash < size.cnt)
      (matching : data.hwFenceMatch triple hash = true)
      (first : ∀ i < size.cnt, Before size triple i hash → data.hwFenceMatch triple i = false)
      (succeeds : processFn data hash = some data') :
      Processed size data triple processFn data' (some hash)

theorem lookupAndProcess_processed (size : Size) (data : DriverData) (triple : Triple)
    (processFn : DriverData → Nat → Option DriverData) :
    Processed size data triple processFn (data.lookupAndProcess size triple processFn).1
      (data.lookupAndProcess size triple processFn).2 := by
  have home := homeOf_lt size triple
  rw [lookupAndProcess_eq]
  cases found : firstProbe (data.hwFenceMatch triple) size.cnt size.cnt (homeOf size triple) with
  | none => exact .missing ((firstProbe_full_eq_none_iff _ home).mp found)
  | some hash =>
    obtain ⟨inside, matching, first⟩ := (firstProbe_full_eq_some_iff _ home).mp found
    dsimp only
    cases processed : processFn data hash with
    | none => exact .refused hash inside matching first processed
    | some data' => exact .done hash inside matching first processed

theorem before_or (size : Size) (triple : Triple) {i j : Nat} (inside : i < size.cnt)
    (inside' : j < size.cnt) (differs : i ≠ j) :
    Before size triple i j ∨ Before size triple j i := by
  apply Nat.lt_or_gt_of_ne
  intro same
  exact differs (probeDistance_inj (homeOf_lt size triple) inside inside' same)

namespace Mapped

theorem eq_of_holds (mapped : Mapped size data) {i j : Nat} (inside : i < size.cnt)
    (inside' : j < size.cnt) (here : data.holds triple i = true)
    (there : data.holds triple j = true) : i = j := by
  rw [holds_iff] at here there
  exact mapped.unique i inside j inside' here.1 there.1 triple here.2 there.2

theorem reserve (mapped : Mapped size data) {clientId pendingChildCnt : BitVec 32}
    (new : ∀ i < size.cnt, data.holds triple i = false) :
    Mapped size (data.reserve clientId triple pendingChildCnt hash) := by
  have here : (data.reserve clientId triple pendingChildCnt hash).hwFencesTbl hash =
      { (data.hwFencesTbl hash).cleanup with
        valid := true
        ctxId := triple.context
        seqId := triple.seqno
        fenceAllocator := clientId
        refcount := fctlRefcount + 1
        pendingChildCnt } := Function.update_self ..
  have key : (data.reserve clientId triple pendingChildCnt hash).hlosKeyTbl hash =
      triple.hlosKey := Function.update_self ..
  have other {i : Nat} (differs : i ≠ hash) :
      (data.reserve clientId triple pendingChildCnt hash).hwFencesTbl i = data.hwFencesTbl i ∧
        (data.reserve clientId triple pendingChildCnt hash).hlosKeyTbl i = data.hlosKeyTbl i :=
    ⟨Function.update_of_ne differs .., Function.update_of_ne differs ..⟩
  have same {triple' : Triple} (matching : (data.reserve clientId triple pendingChildCnt
      hash).hwFenceMatch triple' hash = true) : triple' = triple := by
    rw [hwFenceMatch_iff, here, key] at matching
    obtain ⟨context, seqno, hlosKey⟩ := matching
    cases triple
    cases triple'
    simp_all
  have alone {triple' : Triple} {i : Nat} (inside : i < size.cnt) (differs : i ≠ hash)
      (valid : ((data.reserve clientId triple pendingChildCnt hash).hwFencesTbl i).valid = true)
      (matching : (data.reserve clientId triple pendingChildCnt hash).hwFenceMatch triple' i = true)
      (matching' : (data.reserve clientId triple pendingChildCnt hash).hwFenceMatch triple' hash =
        true) : False := by
    rw [same matching'] at matching
    obtain ⟨fence, key⟩ := other differs
    have held : data.holds triple i = true := by
      rw [holds_iff]
      refine ⟨by rwa [← fence], ?_⟩
      simpa only [hwFenceMatch, fence, key] using matching
    rw [new i inside] at held
    cases held
  constructor
  · intro i inside j inside' valid valid' triple' matching matching'
    by_cases first : i = hash
    · by_cases second : j = hash
      · rw [first, second]
      · rw [first] at matching
        exact (alone inside' second valid' matching' matching).elim
    · by_cases second : j = hash
      · rw [second] at matching'
        exact (alone inside first valid matching matching').elim
      · obtain ⟨fence, key⟩ := other first
        obtain ⟨fence', key'⟩ := other second
        rw [fence] at valid
        rw [fence'] at valid'
        simp only [hwFenceMatch, fence, key] at matching
        simp only [hwFenceMatch, fence', key'] at matching'
        exact mapped.unique i inside j inside' valid valid' triple' matching matching'
  · intro i free
    by_cases first : i = hash
    · rw [first, here] at free
      cases free
    · rw [(other first).1] at free ⊢
      exact mapped.clean i free

theorem new_of_first (seen : ¬ data.Hidden size triple) (inside : hash < size.cnt)
    (free : (data.hwFencesTbl hash).valid = false)
    (first : ∀ i < size.cnt, Before size triple i hash → data.stopsCreation triple i = false) :
    ∀ i < size.cnt, data.holds triple i = false := by
  intro i inside'
  by_contra held
  rw [Bool.not_eq_false] at held
  obtain ⟨valid, matching⟩ := holds_iff.mp held
  have differs : i ≠ hash := by
    rintro rfl
    rw [valid] at free
    cases free
  rcases before_or size triple inside' inside differs with earlier | later
  · have passed := (stopsCreation_eq_false_iff.mp (first i inside' earlier)).2
    rw [matching] at passed
    cases passed
  · exact seen ⟨i, inside', held, hash, inside, free, later⟩

theorem create (mapped : Mapped size data) (seen : ¬ data.Hidden size triple)
    {clientId pendingChildCnt : BitVec 32} {createSignaled : Bool} {made : Option Nat}
    (created : Created size data clientId triple pendingChildCnt createSignaled data' made) :
    Mapped size data' := by
  cases created with
  | full => exact mapped
  | exists_ => exact mapped
  | shared hash _ holds _ found => exact mapped.fenceFound (holds_iff.mp holds).1 found
  | reserved hash inside free first => exact mapped.reserve (new_of_first seen inside free first)

theorem holds_of_first (shown : data.Shown size triple) (inside : hash < size.cnt)
    (matching : data.hwFenceMatch triple hash = true)
    (first : ∀ i < size.cnt, Before size triple i hash → data.hwFenceMatch triple i = false) :
    data.holds triple hash = true := by
  cases valid : (data.hwFencesTbl hash).valid with
  | true => exact holds_iff.mpr ⟨valid, matching⟩
  | false =>
    obtain ⟨i, inside', ⟨held, _⟩, earlier⟩ :=
      shown hash inside (remains_iff.mpr ⟨valid, matching⟩)
    have passed := first i inside' earlier
    rw [(holds_iff.mp held).2] at passed
    cases passed

theorem find (mapped : Mapped size data) (shown : data.Shown size triple) {made : Option Nat}
    (processed : Processed size data triple DriverData.fenceFound data' made) :
    Mapped size data' := by
  cases processed with
  | missing => exact mapped
  | refused => exact mapped
  | done hash inside matching first found =>
    exact mapped.fenceFound (holds_iff.mp (holds_of_first shown inside matching first)).1 found

theorem destroy (mapped : Mapped size data) {made : Option Nat}
    (processed : Processed size data triple DriverData.unreserve data' made) :
    Mapped size data' := by
  cases processed with
  | missing => exact mapped
  | refused => exact mapped
  | done hash _ _ _ dropped => exact mapped.unreserve dropped

theorem lone (mapped : Mapped size data) (shown : data.Shown size triple) {i j : Nat}
    (inside : i < size.cnt) (inside' : j < size.cnt) (here : data.hwFenceMatch triple i = true)
    (full : data.Saturated i) (there : data.hwFenceMatch triple j = true) : j = i := by
  have referenced : (data.hwFencesTbl i).refcount &&& hlosRefcountMask ≠ 0 := by
    rw [full]
    decide
  have taken : (data.hwFencesTbl i).valid = true := mapped.valid_of_ref referenced
  have held : data.holds triple i = true := holds_iff.mpr ⟨taken, here⟩
  cases valid : (data.hwFencesTbl j).valid with
  | true => exact mapped.eq_of_holds inside' inside (holds_iff.mpr ⟨valid, there⟩) held
  | false =>
    obtain ⟨k, inside'', ⟨held', unsaturated⟩, _⟩ :=
      shown j inside' (remains_iff.mpr ⟨valid, there⟩)
    rw [mapped.eq_of_holds inside'' inside held' held] at unsaturated
    exact absurd full unsaturated

end Mapped

/-! ### The search in ranges -/

def searched (data : DriverData) : Option Nat → DriverData × Search
  | none => (data, .missing)
  | some hash =>
    match data.fenceFound hash with
    | some data => (data, .backed hash)
    | none => (data, .missing)

theorem searched_of_some (taken : data.fenceFound hash = some data') :
    searched data (some hash) = (data', .backed hash) := by
  simp only [searched, taken]

theorem searched_of_none (taken : data.fenceFound hash = none) :
    searched data (some hash) = (data, .missing) := by
  simp only [searched, taken]

theorem findRanges_eq (mapped : Mapped size data) (shown : data.Shown size triple)
    {isSignaled : Nat → Bool} (unsignaled : ∀ step, isSignaled step = false) (fuel step : Nat)
    (enough : size.cnt ≤ step + fuel) :
    findRanges size triple isSignaled fuel step data =
      searched data (firstProbe (data.hwFenceMatch triple) size.cnt (size.cnt - step)
        ((homeOf size triple + step) % size.cnt)) := by
  have pos := size.pos
  induction fuel generalizing step with
  | zero =>
    rw [Nat.sub_eq_zero_of_le (by omega)]
    rfl
  | succ fuel ih =>
    have onward := ih (step + findThreshold) (by unfold findThreshold; omega)
    rw [findRanges]
    split
    · rename_i more
      obtain ⟨endStep, bounds⟩ : ∃ endStep, endStep = if step + findThreshold > size.cnt then
        size.cnt else step + findThreshold := ⟨_, rfl⟩
      have within : step < endStep ∧ endStep ≤ size.cnt := by
        unfold findThreshold at bounds
        split at bounds <;> omega
      have start : (homeOf size triple + step) % size.cnt < size.cnt := Nat.mod_lt _ pos
      -- the slots of this range, then all that are left
      have parts : firstProbe (data.hwFenceMatch triple) size.cnt (size.cnt - step)
          ((homeOf size triple + step) % size.cnt) =
        (firstProbe (data.hwFenceMatch triple) size.cnt (endStep - step)
          ((homeOf size triple + step) % size.cnt)).or
        (firstProbe (data.hwFenceMatch triple) size.cnt (size.cnt - (step + findThreshold))
          ((homeOf size triple + (step + findThreshold)) % size.cnt)) := by
        split at bounds
        · have last : size.cnt - (step + findThreshold) = 0 := by omega
          rw [last, firstProbe_zero, Option.or_none, bounds]
        · have split : size.cnt - step =
              (endStep - step) + (size.cnt - (step + findThreshold)) := by omega
          have on : endStep - step = findThreshold := by omega
          rw [split, firstProbe_add _ _ _ start, Nat.mod_add_mod, on, Nat.add_assoc]
      dsimp only
      rw [← bounds, lookupAndProcessRange_eq _ within.1 within.2, parts]
      cases found : firstProbe (data.hwFenceMatch triple) size.cnt (endStep - step)
          ((homeOf size triple + step) % size.cnt) with
      | none =>
        simp only [unsignaled, Bool.false_eq_true, if_false, Option.none_or]
        exact onward
      | some hash =>
        rw [Option.some_or]
        cases taken : data.fenceFound hash with
        | some data' =>
          rw [searched_of_some taken]
          simp only [taken]
        | none =>
          rw [searched_of_none taken]
          simp only [taken, unsignaled, Bool.false_eq_true, if_false]
          rw [onward]
          -- the fence is saturated, and no later slot matches it
          obtain ⟨k, near, place, matching, _⟩ := (firstProbe_eq_some_iff _ _ start).mp found
          have inside : hash < size.cnt := by
            rw [place]
            exact Nat.mod_lt _ pos
          have full := fenceFound_eq_none_iff.mp taken
          have none_later : firstProbe (data.hwFenceMatch triple) size.cnt
              (size.cnt - (step + findThreshold))
              ((homeOf size triple + (step + findThreshold)) % size.cnt) = none := by
            rw [firstProbe_eq_none_iff _ _ (Nat.mod_lt _ pos)]
            intro l later
            by_contra there
            rw [Bool.not_eq_false] at there
            have same := mapped.lone shown inside (Nat.mod_lt _ pos) matching full there
            have shift : ((homeOf size triple + (step + findThreshold)) % size.cnt + l) %
                size.cnt =
              ((homeOf size triple + step) % size.cnt + (findThreshold + l)) % size.cnt := by
              rw [Nat.mod_add_mod, Nat.mod_add_mod]
              congr 1
              omega
            rw [shift, place] at same
            have equal := congrArg
              (probeDistance size.cnt ((homeOf size triple + step) % size.cnt)) same
            rw [probeDistance_add start (by omega), probeDistance_add start (by omega)] at equal
            split at bounds <;> omega
          rw [none_later]
          rfl
    · rename_i done
      rw [Nat.sub_eq_zero_of_le (Nat.le_of_not_lt done)]
      rfl

theorem findRanges_full_eq (mapped : Mapped size data) (shown : data.Shown size triple)
    {isSignaled : Nat → Bool} (unsignaled : ∀ step, isSignaled step = false) :
    findRanges size triple isSignaled size.cnt 0 data =
      searched data (firstProbe (data.hwFenceMatch triple) size.cnt size.cnt
        (homeOf size triple)) := by
  rw [findRanges_eq mapped shown unsignaled size.cnt 0 (by omega), Nat.sub_zero, Nat.add_zero,
    Nat.mod_eq_of_lt (homeOf_lt size triple)]

theorem findRanges_signaled (isSignaled : Nat → Bool) (fuel step : Nat) :
    findRanges size triple isSignaled fuel step data = (data, .signaled) ∨
      findRanges size triple isSignaled fuel step data =
        findRanges size triple (fun _ => false) fuel step data := by
  induction fuel generalizing step with
  | zero => exact .inr rfl
  | succ fuel ih =>
    simp only [findRanges]
    split
    · obtain ⟨endStep, bounds⟩ : ∃ endStep, endStep = if step + findThreshold > size.cnt then
        size.cnt else step + findThreshold := ⟨_, rfl⟩
      rw [← bounds]
      have unchanged : (data.lookupAndProcessRange size triple step endStep
          DriverData.fenceFound).2 = none →
        (data.lookupAndProcessRange size triple step endStep DriverData.fenceFound).1 = data := by
        unfold lookupAndProcessRange
        split
        · exact fun _ => rfl
        · split
          · nofun
          · exact fun _ => rfl
      cases ranged : data.lookupAndProcessRange size triple step endStep
          DriverData.fenceFound with
      | mk after made =>
        rw [ranged] at unchanged
        cases made with
        | some hash => exact .inr rfl
        | none =>
          cases unchanged rfl
          dsimp only
          cases isSignaled step with
          | true => exact .inl rfl
          | false => exact ih (step + findThreshold)
    · exact .inr rfl

theorem Mapped.searched (mapped : Mapped size data) (shown : data.Shown size triple) :
    Mapped size (searched data (firstProbe (data.hwFenceMatch triple) size.cnt size.cnt
      (homeOf size triple))).1 := by
  cases found : firstProbe (data.hwFenceMatch triple) size.cnt size.cnt (homeOf size triple) with
  | none => exact mapped
  | some hash =>
    obtain ⟨inside, matching, first⟩ :=
      (firstProbe_full_eq_some_iff _ (homeOf_lt size triple)).mp found
    cases taken : data.fenceFound hash with
    | none =>
      rw [searched_of_none taken]
      exact mapped
    | some data' =>
      rw [searched_of_some taken]
      exact mapped.fenceFound
        (holds_iff.mp (holds_of_first shown inside matching first)).1 taken

theorem Mapped.findWithDmaFence (mapped : Mapped size data) (shown : data.Shown size triple)
    (create isSignaledBefore : Bool) (isSignaled : Nat → Bool) :
    Mapped size
      (data.findWithDmaFence size triple create isSignaledBefore isSignaled).1 := by
  unfold DriverData.findWithDmaFence
  split
  · exact mapped
  · rcases @findRanges_signaled size data triple isSignaled size.cnt 0 with stopped | same
    · rw [stopped]
      exact mapped
    · rw [same, findRanges_full_eq mapped shown fun _ => rfl]
      exact mapped.searched shown

/-! ### Runs -/

theorem Mapped.step {move : Move} (mapped : Mapped size data) (careful : Careful size data move)
    (taken : step size data move = some data') : Mapped size data' := by
  cases move with
  | create clientId triple pendingChildCnt createSignaled =>
    cases taken
    exact mapped.create careful (lookupAndCreate_created ..)
  | createInternal clientId triple =>
    have created := lookupAndCreate_created size data clientId triple 0 false
    have mapped' := mapped.create careful created
    simp only [HwFence.step] at taken
    cases made : data.lookupAndCreate size clientId triple 0 false with
    | mk after place =>
      rw [made] at taken mapped' created
      cases place with
      | none =>
        cases taken
        exact mapped'
      | some hash =>
        cases taken
        have valid : (after.hwFencesTbl hash).valid = true := by
          cases created with
          | shared _ _ _ asked => cases asked
          | reserved =>
            simp only [DriverData.store, Function.update_self]
        apply mapped'.of_store
        · exact fun _ => ⟨valid, rfl, rfl⟩
        · intro free
          exact absurd (free.symm.trans valid) (by decide)
  | find triple =>
    cases taken
    exact mapped.find careful (lookupAndProcess_processed ..)
  | findWithDmaFence triple create isSignaledBefore isSignaled =>
    cases taken
    exact mapped.findWithDmaFence careful _ _ _
  | destroy triple =>
    cases taken
    exact mapped.destroy (lookupAndProcess_processed ..)
  | destroyRefcount place ref =>
    cases dropped : data.destroyRefcount size place ref with
    | none =>
      simp only [HwFence.step, dropped] at taken
      cases taken
      exact mapped
    | some after =>
      simp only [HwFence.step, dropped] at taken
      cases taken
      exact mapped.destroyRefcount dropped
  | destroyWithHash place =>
    cases dropped : data.destroyWithHash size place with
    | none =>
      simp only [HwFence.step, dropped] at taken
      cases taken
      exact mapped
    | some after =>
      simp only [HwFence.step, dropped] at taken
      cases taken
      exact mapped.destroyWithHash dropped

structure FiniteMap (size : Size) (data : DriverData) : Prop where
  unique : ∀ triple, ∀ i < size.cnt, ∀ j < size.cnt, data.holds triple i = true →
    data.holds triple j = true → i = j
  create : ∀ clientId triple pendingChildCnt,
    ((data.lookupAndCreate size clientId triple pendingChildCnt false).2.isSome = true ↔
      (∃ i < size.cnt, (data.hwFencesTbl i).valid = false) ∧
        ∀ i < size.cnt, data.holds triple i = false) ↔ ¬ data.Hidden size triple
  createSignaled : ∀ clientId triple pendingChildCnt, ¬ data.Hidden size triple →
    ((data.lookupAndCreate size clientId triple pendingChildCnt true).2.isSome = true ↔
      (∃ i < size.cnt, data.holds triple i = true ∧ ¬ data.Saturated i) ∨
        (∃ i < size.cnt, (data.hwFencesTbl i).valid = false) ∧
          ∀ i < size.cnt, data.holds triple i = false)
  find : ∀ triple, data.Shown size triple → ∀ i, (data.find size triple).2 = some i ↔
    i < size.cnt ∧ data.holds triple i = true ∧ ¬ data.Saturated i
  stepwise : ∀ triple, data.Shown size triple → ∀ create isSignaledBefore isSignaled,
    (create || !isSignaledBefore) = true → (∀ step, isSignaled step = false) →
      data.findWithDmaFence size triple create isSignaledBefore isSignaled =
        ((data.find size triple).1,
          (data.find size triple).2.elim Search.missing Search.backed)

theorem Mapped.finiteMap (mapped : Mapped size data) : FiniteMap size data where
  unique := fun triple i inside j inside' => mapped.eq_of_holds inside inside'
  create := by
    intro clientId triple pendingChildCnt
    have created := lookupAndCreate_created size data clientId triple pendingChildCnt false
    generalize (data.lookupAndCreate size clientId triple pendingChildCnt false) = result at created
    obtain ⟨after, made⟩ := result
    constructor
    · rintro right ⟨i, inside, held, j, inside', free, earlier⟩
      have stops : data.stopsCreation triple j = true := by simp [stopsCreation, free]
      cases created with
      | full none_stops => exact absurd (stops.symm.trans (none_stops j inside')) (by decide)
      | exists_ hash inside'' held' first _ =>
        rw [mapped.eq_of_holds inside'' inside held' held] at first
        exact absurd (stops.symm.trans (first j inside' earlier)) (by decide)
      | shared _ _ _ asked => cases asked
      | reserved hash _ _ _ =>
        have gone := (right.mp rfl).2 i inside
        exact absurd (held.symm.trans gone) (by decide)
    · intro seen
      cases created with
      | full none_stops =>
        refine iff_of_false (by simp) ?_
        rintro ⟨⟨i, inside, free⟩, -⟩
        have valid := (stopsCreation_eq_false_iff.mp (none_stops i inside)).1
        exact absurd (free.symm.trans valid) (by decide)
      | exists_ hash inside held _ _ =>
        refine iff_of_false (by simp) ?_
        rintro ⟨-, gone⟩
        exact absurd (held.symm.trans (gone hash inside)) (by decide)
      | shared _ _ _ asked => cases asked
      | reserved hash inside free first =>
        exact iff_of_true rfl ⟨⟨hash, inside, free⟩, Mapped.new_of_first seen inside free first⟩
  createSignaled := by
    intro clientId triple pendingChildCnt seen
    have created := lookupAndCreate_created size data clientId triple pendingChildCnt true
    generalize (data.lookupAndCreate size clientId triple pendingChildCnt true) = result at created
    obtain ⟨after, made⟩ := result
    cases created with
    | full none_stops =>
      refine iff_of_false (by simp) ?_
      rintro (⟨i, inside, held, -⟩ | ⟨⟨i, inside, free⟩, -⟩)
      · have passed := (stopsCreation_eq_false_iff.mp (none_stops i inside)).2
        exact absurd ((holds_iff.mp held).2.symm.trans passed) (by decide)
      · have valid := (stopsCreation_eq_false_iff.mp (none_stops i inside)).1
        exact absurd (free.symm.trans valid) (by decide)
    | exists_ hash inside held _ refused =>
      refine iff_of_false (by simp) ?_
      rintro (⟨i, inside', held', unsaturated⟩ | ⟨-, gone⟩)
      · rw [mapped.eq_of_holds inside' inside held' held] at unsaturated
        exact unsaturated (refused rfl)
      · exact absurd (held.symm.trans (gone hash inside)) (by decide)
    | shared hash inside held _ found =>
      refine iff_of_true rfl (.inl ⟨hash, inside, held, fun full => ?_⟩)
      rw [fenceFound_eq_none_iff.mpr full] at found
      cases found
    | reserved hash inside free first =>
      exact iff_of_true rfl
        (.inr ⟨⟨hash, inside, free⟩, Mapped.new_of_first seen inside free first⟩)
  find := by
    intro triple shown i
    have processed := lookupAndProcess_processed size data triple DriverData.fenceFound
    rw [DriverData.find]
    generalize (data.lookupAndProcess size triple DriverData.fenceFound) = result at processed
    obtain ⟨after, made⟩ := result
    cases processed with
    | missing none_matches =>
      refine iff_of_false (by simp) ?_
      rintro ⟨inside, held, -⟩
      exact absurd ((holds_iff.mp held).2.symm.trans (none_matches i inside)) (by decide)
    | refused hash inside matching first fails =>
      refine iff_of_false (by simp) ?_
      rintro ⟨inside', held, unsaturated⟩
      have held' := Mapped.holds_of_first shown inside matching first
      rw [mapped.eq_of_holds inside' inside held held'] at unsaturated
      exact unsaturated (fenceFound_eq_none_iff.mp fails)
    | done hash inside matching first succeeds =>
      have held := Mapped.holds_of_first shown inside matching first
      have unsaturated : ¬ data.Saturated hash := by
        intro full
        rw [fenceFound_eq_none_iff.mpr full] at succeeds
        cases succeeds
      constructor
      · rintro ⟨⟩
        exact ⟨inside, held, unsaturated⟩
      · rintro ⟨inside', held', -⟩
        rw [mapped.eq_of_holds inside' inside held' held]
  stepwise := by
    intro triple shown create isSignaledBefore isSignaled goes unsignaled
    have searches : ¬ (!create && isSignaledBefore) = true := by
      cases create <;> cases isSignaledBefore <;> simp_all
    rw [DriverData.findWithDmaFence, if_neg searches, findRanges_full_eq mapped shown unsignaled,
      DriverData.find, lookupAndProcess_eq]
    cases firstProbe (data.hwFenceMatch triple) size.cnt size.cnt (homeOf size triple) with
    | none => rfl
    | some hash =>
      cases taken : data.fenceFound hash with
      | none =>
        rw [searched_of_none taken]
        simp only [taken]
        rfl
      | some data' =>
        rw [searched_of_some taken]
        simp only [taken]
        rfl

theorem finiteMap_of_reachable
    (reached : Reachable Initial (StepOf (step size) (Careful size)) data) :
    FiniteMap size data := by
  have mapped : Mapped size data := by
    induction reached with
    | start initial =>
      cases initial
      exact Mapped.of_init
    | next _ taken ih =>
      obtain ⟨move, careful, taken⟩ := taken
      exact ih.step careful taken
  exact mapped.finiteMap

/-! Two fences whose searches begin at the same slot, of which the first is released. -/

def four : Size where
  cnt := 4
  pos := by decide
  small := by decide

def front : Triple := ⟨1, 1, 100⟩

def behind : Triple := ⟨1, 5, 200⟩

def collidingMoves : List Move :=
  [.create 1 front 0 false, .create 1 behind 0 false, .find behind]

def duplicateMoves : List Move :=
  collidingMoves ++ [.destroyRefcount 0 fctlRefcount, .destroyWithHash 0,
    .create 2 behind 0 false]

theorem init_initial : Initial DriverData.init := rfl

theorem collidingMoves_run :
    (play (step four) (Careful four) DriverData.init collidingMoves).isSome := by
  decide +kernel

def colliding : DriverData :=
  (play (step four) (Careful four) DriverData.init collidingMoves).get collidingMoves_run

theorem colliding_finiteMap :
    (colliding.hwFencesTbl 1).refcount = fctlRefcount + 2 ∧ FiniteMap four colliding :=
  ⟨by decide +kernel,
    finiteMap_of_reachable (play_reachable (.start init_initial) collidingMoves_run)⟩

theorem duplicateMoves_run :
    (play (step four) (fun _ _ => True) DriverData.init duplicateMoves).isSome := by
  decide +kernel

def duplicate : DriverData :=
  (play (step four) (fun _ _ => True) DriverData.init duplicateMoves).get duplicateMoves_run

/-- Two slots have the same fence. -/
theorem duplicate_not_finiteMap :
    Reachable Initial (StepOf (step four) fun _ _ => True) duplicate ∧
      ¬ FiniteMap four duplicate := by
  refine ⟨play_reachable (.start init_initial) duplicateMoves_run, fun map => ?_⟩
  have first : duplicate.holds behind 0 = true := by decide +kernel
  have second : duplicate.holds behind 1 = true := by decide +kernel
  exact absurd (map.unique behind 0 (by decide) 1 (by decide) first second) (by decide)

end VendorModules.HwFence
