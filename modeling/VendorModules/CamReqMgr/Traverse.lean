import Mathlib

namespace VendorModules.CamReqMgr

open Function

/-! The request manager walks the pipeline-delay tables of a link, from the
largest delay down, and applies one frame's settings of all of them or of none. -/

inductive ReqState where
  | empty
  | pending
  | ready
  | invalid
  deriving DecidableEq

structure TblSlot where
  reqReadyMap : BitVec 32
  state : ReqState

structure ReqTbl where
  pd : Nat
  devMask : BitVec 32
  skipTraverse : Int
  pdDelta : Int
  numSlots : Int
  slot : Int → TblSlot

structure Slot where
  reqId : Int
  skipIdx : Int

structure Apply where
  idx : Int
  pd : Nat
  reqId : Int
  skipIdx : Int

structure TraverseResult where
  reqId : Int
  pd : Nat
  maskedValue : BitVec 32

structure TraverseData where
  idx : Int
  result : BitVec 32
  resultData : TraverseResult
  applyData : Nat → Apply
  inQ : Int → Slot
  validateOnly : Bool

def EINVAL : Int := 22

def EAGAIN : Int := 11

def decIdx (val step maxVal : Int) : Int :=
  if val - step < 0 then maxVal + (val - step) else val - step

def setSuccessBit (ret : BitVec 32) (pd : Nat) : BitVec 32 := ret ||| 1#32 <<< pd

def setFailureBit (ret : BitVec 32) (pd : Nat) : BitVec 32 := ret &&& ~~~(1#32 <<< pd)

def ReqTbl.Passes (tbl : ReqTbl) (inQ : Int → Slot) (idx : Int) : Prop :=
  (tbl.slot idx).state = .ready ∨ (inQ idx).skipIdx = 1 ∨ tbl.skipTraverse > 0

instance (tbl : ReqTbl) (inQ : Int → Slot) (idx : Int) : Decidable (tbl.Passes inQ idx) :=
  inferInstanceAs (Decidable (_ ∨ _ ∨ _))

def ReqTbl.entry (tbl : ReqTbl) (inQ : Int → Slot) (idx : Int) (old : Apply) : Apply :=
  { old with
    pd := tbl.pd
    reqId := if tbl.skipTraverse > 0 then -1 else (inQ idx).reqId
    idx := idx }

def ReqTbl.consume (tbl : ReqTbl) : ReqTbl :=
  { tbl with
    skipTraverse := if tbl.skipTraverse > 0 then tbl.skipTraverse - 1 else tbl.skipTraverse }

def TraverseData.succeed (data : TraverseData) (tbl : ReqTbl) (curr : Int) : TraverseData :=
  { data with
    result := setSuccessBit data.result tbl.pd
    applyData :=
      if data.validateOnly = false then
        update data.applyData tbl.pd (tbl.entry data.inQ curr (data.applyData tbl.pd))
      else data.applyData }

def TraverseData.fail (data : TraverseData) (tbl : ReqTbl) : TraverseData :=
  { data with
    result := setFailureBit data.result tbl.pd
    resultData :=
      ⟨(data.inQ data.idx).reqId, tbl.pd,
        tbl.devMask &&& (tbl.slot data.idx).reqReadyMap⟩ }

/-- `__cam_req_mgr_traverse`: the tables from the current one on, no table for
the null pointer. It returns the tables with their skip counters. -/
def traverse : List ReqTbl → TraverseData → Int × List ReqTbl × TraverseData
  | [], data => (-EINVAL, [], { data with result := 0 })
  | tbl :: next, data =>
    if tbl.Passes data.inQ data.idx then
      let (rc, next', data') :=
        match next with
        | [] => (0, [], data)
        | _ :: _ =>
          traverse next { data with idx := decIdx data.idx tbl.pdDelta tbl.numSlots }
      if rc ≥ 0 then
        (0, (if data'.validateOnly = false then tbl.consume else tbl) :: next',
          data'.succeed tbl data.idx)
      else (rc, tbl :: next', data')
    else (-EAGAIN, tbl :: next, data.fail tbl)

/-! ## The chain of a link -/

/-- `__cam_req_mgr_add_tbl_to_link`, behind the tables it walks past. -/
def insertTbl (newTbl : ReqTbl) : ReqTbl → List ReqTbl → List ReqTbl
  | tbl, [] =>
    [{ tbl with pdDelta := tbl.pd - newTbl.pd }, { newTbl with pdDelta := 0 }]
  | tbl, next :: rest =>
    if newTbl.pd < next.pd then tbl :: insertTbl newTbl next rest
    else
      { tbl with pdDelta := tbl.pd - newTbl.pd } ::
        { newTbl with pdDelta := newTbl.pd - next.pd } :: next :: rest

def addTblToLink (newTbl : ReqTbl) : List ReqTbl → List ReqTbl
  | [] => [newTbl]
  | tbl :: next =>
    if tbl.pd < newTbl.pd then { newTbl with pdDelta := newTbl.pd - tbl.pd } :: tbl :: next
    else insertTbl newTbl tbl next

abbrev Sorted (chain : List ReqTbl) : Prop :=
  (chain.map ReqTbl.pd).Pairwise (· > ·)

theorem insertTbl_pds (newTbl tbl : ReqTbl) (next : List ReqTbl) :
    ((insertTbl newTbl tbl next).map ReqTbl.pd).Perm
      (newTbl.pd :: (tbl :: next).map ReqTbl.pd) := by
  induction next generalizing tbl with
  | nil => exact List.Perm.swap _ _ _
  | cons head rest ih =>
    rw [insertTbl]
    split
    · exact ((ih head).cons tbl.pd).trans (List.Perm.swap _ _ _)
    · exact List.Perm.swap _ _ _

theorem insertTbl_sorted {newTbl tbl : ReqTbl} {next : List ReqTbl}
    (sorted : Sorted (tbl :: next)) (fresh : newTbl.pd ∉ (tbl :: next).map ReqTbl.pd)
    (below : newTbl.pd < tbl.pd) : Sorted (insertTbl newTbl tbl next) := by
  induction next generalizing tbl with
  | nil => simpa [Sorted, insertTbl] using below
  | cons head rest ih =>
    simp only [Sorted, List.map_cons, List.pairwise_cons, List.mem_cons, not_or,
      forall_eq_or_imp] at sorted fresh
    obtain ⟨⟨above, aboveRest⟩, aboveHead, sorted⟩ := sorted
    rw [insertTbl]
    split
    · rename_i lower
      have tail := ih (List.pairwise_cons.mpr ⟨aboveHead, sorted⟩)
        (List.not_mem_cons_of_ne_of_not_mem fresh.2.1 fresh.2.2) lower
      refine List.pairwise_cons.mpr ⟨?_, tail⟩
      intro pd member
      have known := (insertTbl_pds newTbl head rest).mem_iff.mp member
      simp only [List.map_cons, List.mem_cons] at known
      obtain rfl | rfl | inRest := known
      · exact below
      · exact above
      · exact aboveRest pd inRest
    · rename_i higher
      have beyond : head.pd < newTbl.pd := by omega
      simp only [Sorted, List.map_cons, List.pairwise_cons, List.mem_cons, forall_eq_or_imp]
      exact ⟨⟨below, above, aboveRest⟩, ⟨beyond, fun pd member => (aboveHead pd member).trans beyond⟩,
        aboveHead, sorted⟩

theorem addTblToLink_sorted {newTbl : ReqTbl} {chain : List ReqTbl} (sorted : Sorted chain)
    (fresh : newTbl.pd ∉ chain.map ReqTbl.pd) : Sorted (addTblToLink newTbl chain) := by
  cases chain with
  | nil => exact List.pairwise_singleton _ _
  | cons tbl next =>
    rw [addTblToLink]
    split
    · rename_i higher
      refine List.pairwise_cons.mpr ⟨?_, sorted⟩
      intro pd member
      obtain rfl | inNext := List.mem_cons.mp member
      · exact higher
      · exact ((List.pairwise_cons.mp sorted).1 pd inNext).trans higher
    · rename_i lower
      have other : newTbl.pd ≠ tbl.pd := fun same => fresh (by simp [same])
      exact insertTbl_sorted sorted fresh (by omega)

/-! ## The walk -/

def visits : Int → List ReqTbl → List (ReqTbl × Int)
  | _, [] => []
  | idx, tbl :: next => (tbl, idx) :: visits (decIdx idx tbl.pdDelta tbl.numSlots) next

def applied (inQ : Int → Slot) : List (ReqTbl × Int) → (Nat → Apply) → Nat → Apply
  | [], apply => apply
  | (tbl, idx) :: rest, apply =>
    let later := applied inQ rest apply
    update later tbl.pd (tbl.entry inQ idx (later tbl.pd))

theorem traverse_success {chain : List ReqTbl} {data : TraverseData} (linked : chain ≠ [])
    (passes : ∀ visit ∈ visits data.idx chain, visit.1.Passes data.inQ visit.2) :
    ∃ data', traverse chain data =
        (0, if data.validateOnly = false then chain.map ReqTbl.consume else chain, data') ∧
      data'.inQ = data.inQ ∧ data'.validateOnly = data.validateOnly ∧
      data'.applyData = if data.validateOnly = false then
        applied data.inQ (visits data.idx chain) data.applyData else data.applyData := by
  induction chain generalizing data with
  | nil => exact absurd rfl linked
  | cons tbl next ih =>
    have here : tbl.Passes data.inQ data.idx := passes (tbl, data.idx) (by simp [visits])
    cases next with
    | nil =>
      refine ⟨data.succeed tbl data.idx, ?_, rfl, rfl, rfl⟩
      simp only [traverse, here, ↓reduceIte, ge_iff_le, le_refl, List.map_cons, List.map_nil]
      split <;> rfl
    | cons head rest =>
      obtain ⟨data', behind, sameQ, sameMode, wrote⟩ :=
        @ih { data with idx := decIdx data.idx tbl.pdDelta tbl.numSlots }
          (List.cons_ne_nil _ _) (fun visit member => passes visit (List.mem_cons_of_mem _ member))
      refine ⟨data'.succeed tbl data.idx, ?_, sameQ, sameMode, ?_⟩
      · rw [traverse]
        simp only [here, behind, ↓reduceIte, ge_iff_le, le_refl, sameMode]
        split <;> rfl
      · simp only [TraverseData.succeed, wrote, sameQ, sameMode]
        split <;> rfl

theorem traverse_failure {chain : List ReqTbl} {before after : List (ReqTbl × Int)}
    {tbl : ReqTbl} {idx : Int} {data : TraverseData}
    (route : visits data.idx chain = before ++ (tbl, idx) :: after)
    (passed : ∀ visit ∈ before, visit.1.Passes data.inQ visit.2)
    (stuck : ¬ tbl.Passes data.inQ idx) :
    ∃ data', traverse chain data = (-EAGAIN, chain, data') ∧
      data'.applyData = data.applyData ∧
      data'.resultData =
        ⟨(data.inQ idx).reqId, tbl.pd, tbl.devMask &&& (tbl.slot idx).reqReadyMap⟩ := by
  induction chain generalizing before data with
  | nil => simp [visits] at route
  | cons head next ih =>
    rw [visits] at route
    cases before with
    | nil =>
      obtain ⟨same, -⟩ := List.cons.inj route
      obtain ⟨rfl, rfl⟩ := Prod.mk.inj same
      refine ⟨data.fail head, ?_, rfl, rfl⟩
      unfold traverse
      exact if_neg stuck
    | cons first before =>
      obtain ⟨rfl, behind⟩ := List.cons.inj route
      have here : head.Passes data.inQ data.idx := passed _ List.mem_cons_self
      obtain ⟨data', failed, kept, named⟩ :=
        @ih before { data with idx := decIdx data.idx head.pdDelta head.numSlots } behind
          (fun visit member => passed visit (List.mem_cons_of_mem _ member)) stuck
      cases next with
      | nil => simp [visits] at behind
      | cons second rest =>
        refine ⟨data', ?_, kept, named⟩
        rw [traverse]
        simp only [here, failed, ↓reduceIte]
        rfl

/-! ## What one call does to a chain -/

abbrev Sized (numSlots : Int) (chain : List ReqTbl) : Prop :=
  ∀ tbl ∈ chain, tbl.numSlots = numSlots ∧ 0 ≤ tbl.pdDelta ∧ tbl.pdDelta ≤ numSlots

def ownIdx (numSlots : Int) (chain : List ReqTbl) (start : Int) (i : Nat) : Int :=
  (start - ((chain.take i).map ReqTbl.pdDelta).sum) % numSlots

theorem decIdx_emod {val step maxVal : Int} (low : 0 ≤ val) (high : val < maxVal)
    (forward : 0 ≤ step) (once : step ≤ maxVal) : decIdx val step maxVal = (val - step) % maxVal := by
  unfold decIdx
  split
  · rename_i negative
    rw [← Int.add_emod_left, Int.emod_eq_of_lt (by omega) (by omega)]
  · rw [Int.emod_eq_of_lt (by omega) (by omega)]

theorem visits_length (idx : Int) (chain : List ReqTbl) :
    (visits idx chain).length = chain.length := by
  induction chain generalizing idx with
  | nil => rfl
  | cons tbl next ih => exact congrArg (· + 1) (ih _)

theorem visits_get {numSlots : Int} {chain : List ReqTbl} (sized : Sized numSlots chain)
    {start : Int} (low : 0 ≤ start) (high : start < numSlots) {i : Nat}
    (inside : i < chain.length) :
    (visits start chain)[i]? = some (chain[i], ownIdx numSlots chain start i) := by
  induction chain generalizing start i with
  | nil => exact absurd inside (Nat.not_lt_zero i)
  | cons tbl next ih =>
    obtain ⟨size, forward, once⟩ := sized tbl List.mem_cons_self
    have step := decIdx_emod low high forward once
    cases i with
    | zero => simp [visits, ownIdx, Int.emod_eq_of_lt low high]
    | succ i =>
      have positive : 0 < numSlots := by omega
      have rest := ih (fun later member => sized later (List.mem_cons_of_mem _ member))
        (Int.emod_nonneg (start - tbl.pdDelta) positive.ne') (Int.emod_lt_of_pos _ positive)
        (Nat.lt_of_succ_lt_succ inside)
      rw [visits, List.getElem?_cons_succ, size, step, rest]
      simp only [ownIdx, List.getElem_cons_succ, List.take_succ_cons, List.map_cons,
        List.sum_cons, Int.emod_sub_emod, Int.sub_sub]

theorem visits_pds (idx : Int) (chain : List ReqTbl) :
    (visits idx chain).map (fun visit => visit.1.pd) = chain.map ReqTbl.pd := by
  induction chain generalizing idx with
  | nil => rfl
  | cons tbl next ih => exact congrArg (tbl.pd :: ·) (ih _)

theorem applied_other {inQ : Int → Slot} {route : List (ReqTbl × Int)} {pd : Nat}
    (other : pd ∉ route.map fun visit => visit.1.pd) (apply : Nat → Apply) :
    applied inQ route apply pd = apply pd := by
  induction route with
  | nil => rfl
  | cons visit rest ih =>
    obtain ⟨here, later⟩ := not_or.mp (mt List.mem_cons.mpr other)
    rw [applied, update_of_ne here, ih later]

theorem applied_entry {inQ : Int → Slot} {route : List (ReqTbl × Int)}
    (distinct : (route.map fun visit => visit.1.pd).Nodup) (apply : Nat → Apply)
    {tbl : ReqTbl} {idx : Int} (member : (tbl, idx) ∈ route) :
    applied inQ route apply tbl.pd = tbl.entry inQ idx (apply tbl.pd) := by
  induction route with
  | nil => exact absurd member List.not_mem_nil
  | cons visit rest ih =>
    obtain ⟨fresh, distinct⟩ := List.nodup_cons.mp distinct
    rw [applied]
    obtain rfl | later := List.mem_cons.mp member
    · rw [update_self, applied_other fresh]
    · have other : tbl.pd ≠ visit.1.pd := by
        intro same
        exact fresh (List.mem_map.mpr ⟨(tbl, idx), later, same⟩)
      rw [update_of_ne other, ih distinct later]

theorem all_or_first (pass : ReqTbl × Int → Prop) (route : List (ReqTbl × Int)) :
    (∀ visit ∈ route, pass visit) ∨ ∃ before visit after, route = before ++ visit :: after ∧
      (∀ earlier ∈ before, pass earlier) ∧ ¬ pass visit := by
  induction route with
  | nil => exact .inl fun visit member => absurd member List.not_mem_nil
  | cons head rest ih =>
    by_cases here : pass head
    · obtain all | ⟨before, visit, after, rfl, passed, stuck⟩ := ih
      · exact .inl (List.forall_mem_cons.mpr ⟨here, all⟩)
      · exact .inr ⟨head :: before, visit, after, rfl, List.forall_mem_cons.mpr ⟨here, passed⟩,
          stuck⟩
    · exact .inr ⟨[], head, rest, rfl, fun _ member => absurd member List.not_mem_nil, here⟩

theorem visits_all {numSlots : Int} {chain : List ReqTbl} (sized : Sized numSlots chain)
    {start : Int} (low : 0 ≤ start) (high : start < numSlots) (inQ : Int → Slot) :
    (∀ visit ∈ visits start chain, visit.1.Passes inQ visit.2) ↔
      ∀ i (inside : i < chain.length),
        chain[i].Passes inQ (ownIdx numSlots chain start i) := by
  constructor
  · intro all i inside
    exact all _ (List.mem_of_getElem? (visits_get sized low high inside))
  · intro all visit member
    obtain ⟨i, inside, rfl⟩ := List.mem_iff_getElem.mp member
    rw [visits_length] at inside
    have found := visits_get sized low high inside
    rw [List.getElem?_eq_some_iff] at found
    obtain ⟨bound, same⟩ := found
    rw [same]
    exact all i inside

/-- The walk succeeds exactly when every table passes at its own slot; then it applies all
entries, and else it leaves all and names the first table that does not pass. -/
theorem traverse_spec {numSlots : Int} {chain : List ReqTbl} {data : TraverseData}
    (linked : chain ≠ []) (sized : Sized numSlots chain) (sorted : Sorted chain)
    (low : 0 ≤ data.idx) (high : data.idx < numSlots) :
    let own := ownIdx numSlots chain data.idx
    let out := traverse chain data
    (out.1 = 0 ↔ ∀ i (inside : i < chain.length), chain[i].Passes data.inQ (own i)) ∧
    (out.1 = 0 → data.validateOnly = false →
      out.2.1 = chain.map ReqTbl.consume ∧
      ∀ i (inside : i < chain.length), out.2.2.applyData chain[i].pd =
        ⟨own i, chain[i].pd,
          if chain[i].skipTraverse > 0 then -1 else (data.inQ (own i)).reqId,
          (data.applyData chain[i].pd).skipIdx⟩) ∧
    (out.1 ≠ 0 ∨ data.validateOnly = true →
      out.2.1 = chain ∧ out.2.2.applyData = data.applyData) ∧
    (out.1 ≠ 0 → ∃ i, ∃ inside : i < chain.length,
      ¬ chain[i].Passes data.inQ (own i) ∧
      (∀ j (earlier : j < i), chain[j].Passes data.inQ (own j)) ∧
      out.2.2.resultData = ⟨(data.inQ (own i)).reqId, chain[i].pd,
        chain[i].devMask &&& (chain[i].slot (own i)).reqReadyMap⟩) := by
  intro own out
  obtain all | ⟨before, visit, after, route, passed, stuck⟩ :=
    all_or_first (fun visit => visit.1.Passes data.inQ visit.2) (visits data.idx chain)
  · obtain ⟨data', ran, -, -, wrote⟩ := traverse_success linked all
    have success : out.1 = 0 := congrArg Prod.fst ran
    refine ⟨iff_of_true success ((visits_all sized low high data.inQ).mp all), ?_, ?_,
      fun failed => absurd success failed⟩
    · intro _ applies
      rw [if_pos applies] at ran wrote
      have result : out = (0, chain.map ReqTbl.consume, data') := ran
      refine ⟨by rw [result], fun i inside => ?_⟩
      have distinct : ((visits data.idx chain).map fun visit => visit.1.pd).Nodup := by
        rw [visits_pds]
        exact sorted.imp fun above => above.ne'
      have member := List.mem_of_getElem? (visits_get sized low high inside)
      rw [result, wrote, applied_entry distinct data.applyData member]
      rfl
    · intro quiet
      have only : data.validateOnly = true := quiet.resolve_left (absurd success)
      have off : ¬ data.validateOnly = false := by simp [only]
      rw [if_neg off] at ran wrote
      have result : out = (0, chain, data') := ran
      exact ⟨by rw [result], by rw [result, wrote]⟩
  · obtain ⟨data', ran, kept, named⟩ := traverse_failure route passed stuck
    have result : out = (-EAGAIN, chain, data') := ran
    have failure : out.1 ≠ 0 := by
      rw [result]
      exact (by decide : -EAGAIN ≠ 0)
    have position : before.length < chain.length := by
      rw [← visits_length data.idx chain, route]
      simp
    have here := visits_get sized low high position
    rw [route, List.getElem?_append_right le_rfl, Nat.sub_self, List.getElem?_cons_zero,
      Option.some_inj] at here
    subst here
    refine ⟨iff_of_false failure fun all => stuck (all _ position), fun success =>
      absurd success failure, fun _ => ⟨by rw [result], by rw [result, kept]⟩, fun _ =>
      ⟨before.length, position, stuck, fun j earlier => ?_, by rw [result, named]⟩⟩
    have found := visits_get sized low high (earlier.trans position)
    rw [route, List.getElem?_append_left earlier] at found
    exact passed _ (List.mem_of_getElem? found)

def sensorAndIfe : List ReqTbl :=
  [⟨2, 1, 0, 2, 48, fun _ => ⟨1, .ready⟩⟩, ⟨0, 1, 1, 0, 48, fun _ => ⟨0, .pending⟩⟩]

def secondSlot : TraverseData :=
  ⟨1, 0, ⟨0, 0, 0⟩, fun _ => ⟨0, 0, 0, 0⟩, fun idx => ⟨idx + 7, 0⟩, false⟩

theorem traverse_sensorAndIfe :
    (traverse sensorAndIfe secondSlot).1 = 0 ∧
      (traverse sensorAndIfe secondSlot).2.2.applyData 2 = ⟨1, 2, 8, 0⟩ ∧
      (traverse sensorAndIfe secondSlot).2.2.applyData 0 = ⟨47, 0, -1, 0⟩ := by
  obtain ⟨succeeds, applies, -, -⟩ :=
    @traverse_spec 48 sensorAndIfe secondSlot (by decide) (by decide) (by decide) (by decide) (by decide)
  have success := succeeds.mpr (by decide)
  obtain ⟨-, entry⟩ := applies success rfl
  exact ⟨success, entry 0 (by decide), entry 1 (by decide)⟩

end VendorModules.CamReqMgr
