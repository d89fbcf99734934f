import VendorModules.Lib.Transition
import VendorModules.MmrmClk.Levels

namespace VendorModules.MmrmClk

open VendorModules.Lib

/-! The aggregates over runs of registrations, deregistrations and set-value requests. -/

variable {Clk : Type}

namespace ClkClientTblEntry

variable {entry : ClkClientTblEntry Clk}

/-! ### The level and the rate of a request -/

theorem le_getMaxCrmRate (entry : ClkClientTblEntry Clk) (clientData : ClientData)
    (newClkVal : BitVec 64) : newClkVal ≤ (entry.getMaxCrmRate clientData newClkVal).1 := by
  unfold getMaxCrmRate
  split
  · exact BitVec.le_refl _
  · rename_i notHigher
    split
    · dsimp only
      split
      · exact BitVec.le_refl _
      · rename_i higher
        exact BitVec.le_of_lt (BitVec.not_le.mp higher)
    · exact BitVec.not_lt.mp notHigher

theorem registerFree_rate (entry : ClkClientTblEntry Clk) (desc : ClkClientDesc Clk) :
    (entry.registerFree desc).1.clkRate = entry.clkRate ∧
      (entry.registerFree desc).1.vddLevel = entry.vddLevel ∧
      (entry.registerFree desc).1.clkSrcId = entry.clkSrcId ∧
      ((entry.registerFree desc).1.client = false → (entry.registerFree desc).1.clk = none) := by
  unfold registerFree
  dsimp only
  split_ifs <;> exact ⟨rfl, rfl, rfl, by simp [unregistered]⟩

end ClkClientTblEntry

namespace SwClkMgr

open ClkClientTblEntry

variable {framework : ClkFramework Clk} {mgr mgr' : SwClkMgr Clk} {uid : Nat}
  {entry next : ClkClientTblEntry Clk} {reqLevel level : VddLevel} {clientData : ClientData}
  {clkVal clkRate : BitVec 64} {maxRateIdx : Nat} {calls : SetvalCalls}

theorem le_requestedRate (entry : ClkClientTblEntry Clk) (clientData : ClientData)
    (clkVal : BitVec 64) : clkVal ≤ (requestedRate entry clientData clkVal).1 := by
  unfold requestedRate
  split
  · exact le_getMaxCrmRate entry clientData clkVal
  · exact BitVec.le_refl _

theorem planLevel_check {clk : Clk} {rate : BitVec 64} {idx : Nat}
    (planned : planLevel framework entry clk clientData clkVal rate idx =
      .check reqLevel clkRate maxRateIdx) : clkRate = rate ∧ (clkVal = 0 → reqLevel = 0) := by
  unfold planLevel at planned
  split at planned
  · cases planned
    exact ⟨rfl, fun _ => rfl⟩
  · rename_i something
    split at planned
    · cases planned
    · split at planned
      · cases planned
        exact ⟨rfl, fun nothing => absurd nothing something⟩
      · cases planned

theorem plan_check (planned : plan framework entry clientData clkVal =
      .check reqLevel clkRate maxRateIdx) :
    (∃ clk, entry.clk = some clk) ∧ (clkRate = 0 → reqLevel = 0) := by
  unfold plan at planned
  split at planned
  · cases planned
  · rename_i clk clocked
    refine ⟨⟨clk, clocked⟩, fun idle => ?_⟩
    split at planned
    · cases planned
    · split at planned
      · cases planned
      · obtain ⟨same, lowest⟩ := planLevel_check planned
        have small := le_requestedRate entry clientData clkVal
        rw [← same, idle] at small
        exact lowest (BitVec.le_zero_iff.mp small)

/-! ### The table after a request -/

theorem granted_facts (clientData : ClientData) (clkVal : BitVec 64) (reqLevel : VddLevel)
    (clkRate : BitVec 64) (maxRateIdx : Nat) (entry : ClkClientTblEntry Clk) :
    (granted clientData clkVal reqLevel clkRate maxRateIdx entry).clkSrcId = entry.clkSrcId ∧
      (granted clientData clkVal reqLevel clkRate maxRateIdx entry).client = entry.client ∧
      (granted clientData clkVal reqLevel clkRate maxRateIdx entry).clk = entry.clk ∧
      (granted clientData clkVal reqLevel clkRate maxRateIdx entry).currentMa = entry.currentMa ∧
      (granted clientData clkVal reqLevel clkRate maxRateIdx entry).clkRate = clkRate ∧
      (granted clientData clkVal reqLevel clkRate maxRateIdx entry).vddLevel = reqLevel ∧
      (granted clientData clkVal reqLevel clkRate maxRateIdx entry).numHwBlocks =
        clientData.numHwBlocks := by
  unfold granted
  dsimp only
  split <;> exact ⟨rfl, rfl, rfl, rfl, rfl, rfl, rfl⟩

def requestLoad (entry : ClkClientTblEntry Clk) (reqLevel level : VddLevel) (clkRate : BitVec 64)
    (numHwBlocks : BitVec 32) : Nat :=
  if clkRate = 0 then 0 else (entry.currentMa reqLevel level).toNat * numHwBlocks.toNat

theorem load_granted (registered : entry.client = true) (clkVal : BitVec 64)
    (reqLevel level : VddLevel) (clkRate : BitVec 64) (maxRateIdx : Nat) :
    (granted clientData clkVal reqLevel clkRate maxRateIdx entry).load level =
      requestLoad entry reqLevel level clkRate clientData.numHwBlocks := by
  obtain ⟨-, client, -, currentMa, rate, vddLevel, blocks⟩ :=
    granted_facts clientData clkVal reqLevel clkRate maxRateIdx entry
  rw [requestLoad]
  split
  · rename_i idle
    exact load_of_idle (rate.trans idle) level
  · rename_i busy
    rw [load_of_enabled ⟨client.trans registered, by rwa [rate]⟩, currentMa, vddLevel, blocks]

theorem demand_granted (registered : entry.client = true) (lowest : clkRate = 0 → reqLevel = 0)
    (clkVal : BitVec 64) (maxRateIdx : Nat) :
    (granted clientData clkVal reqLevel clkRate maxRateIdx entry).demand = reqLevel := by
  obtain ⟨-, client, -, -, rate, vddLevel, -⟩ :=
    granted_facts clientData clkVal reqLevel clkRate maxRateIdx entry
  by_cases idle : clkRate = 0
  · rw [demand_of_idle (rate.trans idle), lowest idle]
  · rw [demand, if_pos ⟨client.trans registered, by rwa [rate]⟩, vddLevel]

theorem tidy_granted (clocked : ∃ clk, entry.clk = some clk) (registered : entry.client = true)
    (lowest : clkRate = 0 → reqLevel = 0) (clkVal : BitVec 64) (maxRateIdx : Nat) :
    (granted clientData clkVal reqLevel clkRate maxRateIdx entry).Tidy := by
  obtain ⟨-, client, clk, -, rate, vddLevel, -⟩ :=
    granted_facts clientData clkVal reqLevel clkRate maxRateIdx entry
  obtain ⟨clock, clocked⟩ := clocked
  refine ⟨fun free => ?_, fun clockless => ?_, fun idle => ?_⟩
  · rw [client, registered] at free
    cases free
  · rw [clk, clocked] at clockless
    cases clockless
  · rw [vddLevel, lowest (rate ▸ idle)]

/-! ### The peak check -/

theorem newCur_eq (fits : clkRate.setWidth 32 = 0 → clkRate = 0) (reqLevel level : VddLevel)
    (numHwBlocks : BitVec 32) :
    newCur entry reqLevel level (clkRate.setWidth 32) numHwBlocks =
      BitVec.ofNat 32 (requestLoad entry reqLevel level clkRate numHwBlocks) := by
  by_cases idle : clkRate = 0
  · subst idle
    rfl
  · rw [newCur, if_neg fun nothing => idle (fits nothing), requestLoad, if_neg idle,
      BitVec.ofNat_mul, BitVec.ofNat_toNat, BitVec.ofNat_toNat, BitVec.setWidth_eq,
      BitVec.setWidth_eq]

theorem add_sub_of_add (peakCur deltaCur saving : BitVec 32) :
    peakCur + (deltaCur - saving) = peakCur + deltaCur - saving := by
  grind

theorem add_sub_exchange (old rest new : BitVec 32) : old + rest + (new - old) = new + rest := by
  grind

theorem peakCur_sum (ordered : mgr.Ordered) (accounted : mgr.Accounted)
    (here : mgr.clkClientTbl[uid]? = some entry) (registered : entry.client = true)
    (fits : clkRate.setWidth 32 = 0 → clkRate = 0) (reqLevel level : VddLevel)
    (numHwBlocks : BitVec 32) :
    (mgr.peakCur uid entry reqLevel level (clkRate.setWidth 32) numHwBlocks).1 +
        (mgr.peakCur uid entry reqLevel level (clkRate.setWidth 32) numHwBlocks).2 =
      BitVec.ofNat 32 (requestLoad entry reqLevel level clkRate numHwBlocks +
        total (mgr.clkClientTbl.eraseIdx uid) level) := by
  unfold peakCur
  rw [newCur_eq fits]
  split
  · dsimp only
    rw [ordered.calculateTotalCurrent_eq, ← BitVec.ofNat_add, Nat.add_comm]
    exact BitVec.add_zero _
  · rename_i same
    obtain rfl : level = mgr.aggregLevel := not_not.mp same
    dsimp only
    have old : (if entry.clkRate = 0 then 0 else entry.current mgr.aggregLevel) =
        BitVec.ofNat 32 (entry.load mgr.aggregLevel) := by
      split
      · rename_i idle
        rw [load_of_idle idle]
        rfl
      · rename_i busy
        exact current_eq_ofNat ⟨registered, busy⟩ mgr.aggregLevel
    rw [old, accounted.ofNat, total_eraseIdx here, BitVec.ofNat_add, add_sub_exchange,
      ← BitVec.ofNat_add]

theorem checkPeakCurrent_cases {clkVal numHwBlocks sum deltaCur : BitVec 32}
    (found : level = mgr.checkReqLevel entry.clkSrcId reqLevel)
    (summed : sum = (mgr.peakCur uid entry reqLevel level clkVal numHwBlocks).1 +
      (mgr.peakCur uid entry reqLevel level clkVal numHwBlocks).2)
    (delta : deltaCur = (mgr.peakCur uid entry reqLevel level clkVal numHwBlocks).2)
    (passed : mgr.checkPeakCurrent uid entry reqLevel clkVal numHwBlocks calls = .ok mgr') :
    (sum.toInt ≤ 0 ∧ mgr' = { mgr with aggregVal := 0, aggregLevel := level }) ∨
      (¬ mgr.threshold ≤ sum ∨ mgr.throttleLowPriorityClient calls deltaCur = .nobody false) ∧
        mgr' = mgr.updatePeak sum level ∨
      mgr.threshold ≤ sum ∧ ∃ tableId throttled saving,
        mgr.throttleLowPriorityClient calls deltaCur = .taken tableId throttled saving ∧
          mgr' = (mgr.throttle tableId throttled saving).updatePeak (sum - saving) level := by
  subst found summed delta
  unfold checkPeakCurrent at passed
  dsimp only at passed
  split at passed
  · rename_i nothing
    cases passed
    exact Or.inl ⟨nothing, rfl⟩
  · split at passed
    · rename_i overshoot
      split at passed
      · split at passed
        · cases passed
        · cases passed
        · rename_i nobody
          cases passed
          exact Or.inr (Or.inl ⟨Or.inr nobody, rfl⟩)
        · rename_i tableId throttled saving taken
          cases passed
          refine Or.inr (Or.inr ⟨overshoot, tableId, throttled, saving, taken, ?_⟩)
          rw [add_sub_of_add]
      · cases passed
    · rename_i within
      cases passed
      exact Or.inr (Or.inl ⟨Or.inl within, rfl⟩)

/-! ### Throttling -/

theorem throttleFrom_taken {deltaCur saving : BitVec 32} {i tableId throttled : Nat}
    {uids : List Nat} {failed : Bool}
    (taken : mgr.throttleFrom calls deltaCur i uids failed = .taken tableId throttled saving) :
    ∃ other, mgr.clkClientTbl[throttled]? = some other ∧
      other.currentMa 0 mgr.aggregLevel < other.currentMa other.vddLevel mgr.aggregLevel := by
  induction uids generalizing i failed with
  | nil => cases taken
  | cons uid rest ih =>
    rw [throttleFrom] at taken
    split at taken
    · exact ih taken
    · rename_i other there
      dsimp only at taken
      split at taken
      · exact ih taken
      · rename_i more
        by_cases refused : (if other.notifierCbFn then !calls.notified i else failed) = true
        · rw [if_pos refused] at taken
          exact ih taken
        · rw [if_neg refused] at taken
          split at taken
          · exact ih taken
          · split at taken
            · cases taken
              exact ⟨other, there, BitVec.not_le.mp fun low => more (Or.inl low)⟩
            · cases taken

theorem modify_of_getElem? {tbl : List (ClkClientTblEntry Clk)} (here : tbl[uid]? = some entry)
    (f : ClkClientTblEntry Clk → ClkClientTblEntry Clk) :
    tbl.modify uid f = tbl.set uid (f entry) := by
  have : Inhabited (ClkClientTblEntry Clk) := ⟨entry⟩
  rw [List.modify_eq_set, here]
  rfl

theorem Ordered.throttled (ordered : mgr.Ordered) {deltaCur saving : BitVec 32}
    {tableId throttled : Nat}
    (taken : mgr.throttleLowPriorityClient calls deltaCur = .taken tableId throttled saving) :
    ∃ other, mgr.clkClientTbl[throttled]? = some other ∧ other.Enabled ∧
      (mgr.throttle tableId throttled saving).clkClientTbl =
        mgr.clkClientTbl.set throttled other.throttle := by
  obtain ⟨other, there, more⟩ := throttleFrom_taken taken
  have tidy := ordered.tidy_of_getElem? there
  refine ⟨other, there, ?_, modify_of_getElem? there _⟩
  by_contra idle
  have lowest : other.vddLevel = 0 := by
    rw [← tidy.demand_eq, demand, if_neg idle]
  rw [lowest] at more
  exact absurd more (BitVec.lt_irrefl _)

/-! ### Tables that change in one entry -/

theorem Ordered.set (ordered : mgr.Ordered) (here : mgr.clkClientTbl[uid]? = some entry)
    (table : mgr'.clkClientTbl = mgr.clkClientTbl.set uid next) (tidy : next.Tidy)
    (same : next.clkSrcId = entry.clkSrcId)
    (isFirst : next.client = true → ∀ (i : Nat) (other : ClkClientTblEntry Clk), i < uid →
      mgr.clkClientTbl[i]? = some other → other.clkSrcId ≠ entry.clkSrcId)
    : mgr'.Ordered := by
  constructor
  · rw [table]
    intro other member
    rcases List.mem_or_eq_of_mem_set member with member | rfl
    · exact ordered.tidy other member
    · exact tidy
  · intro i j a b before hi hj source
    rw [table, List.getElem?_set] at hi hj
    have inside := (List.getElem?_eq_some_iff.mp here).1
    by_cases atJ : uid = j
    · subst atJ
      rw [if_pos rfl, if_pos inside, Option.some.injEq] at hj
      subst hj
      rw [if_neg (Nat.ne_of_gt before)] at hi
      cases registered : next.client with
      | false => rfl
      | true => exact absurd (source.trans same) (isFirst registered i a before hi)
    · rw [if_neg atJ] at hj
      by_cases atI : uid = i
      · subst atI
        rw [if_pos rfl, if_pos inside, Option.some.injEq] at hi
        subst hi
        exact ordered.first uid j entry b before here hj (same.symm.trans source)
      · rw [if_neg atI] at hi
        exact ordered.first i j a b before hi hj source

theorem Ordered.isFirst (ordered : mgr.Ordered) (here : mgr.clkClientTbl[uid]? = some entry)
    (registered : entry.client = true) (i : Nat) (other : ClkClientTblEntry Clk) (before : i < uid)
    (there : mgr.clkClientTbl[i]? = some other) : other.clkSrcId ≠ entry.clkSrcId := by
  intro source
  have free := ordered.first i uid other entry before there here source
  rw [registered] at free
  cases free

theorem Accounted.of_set {tbl : List (ClkClientTblEntry Clk)} (here : tbl[uid]? = some entry)
    (table : mgr'.clkClientTbl = tbl.set uid next)
    (level : mgr'.aggregLevel = max next.demand (highest (tbl.eraseIdx uid)))
    (val : mgr'.aggregVal.toNat =
      next.load mgr'.aggregLevel + total (tbl.eraseIdx uid) mgr'.aggregLevel) :
    mgr'.Accounted := by
  constructor
  · rw [level, table, highest_set here]
  · rw [val, table, total_set here]

end SwClkMgr

end VendorModules.MmrmClk
