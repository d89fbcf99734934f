import VendorModules.MmrmClk.Accounted

namespace VendorModules.MmrmClk

open VendorModules.Lib

variable {Clk : Type}

namespace SwClkMgr

open ClkClientTblEntry

/-! ### What a request leads to -/

section Request

variable (mgr : SwClkMgr Clk) (uid : Nat) (entry : ClkClientTblEntry Clk) (reqLevel : VddLevel)
  (clkRate : BitVec 64) (numHwBlocks : BitVec 32) (calls : SetvalCalls)

def requestTotal : Nat :=
  requestLoad entry reqLevel (mgr.checkReqLevel entry.clkSrcId reqLevel) clkRate numHwBlocks +
    total (mgr.clkClientTbl.eraseIdx uid) (mgr.checkReqLevel entry.clkSrcId reqLevel)

def requestThrottle : Throttle :=
  mgr.throttleLowPriorityClient calls
    (mgr.peakCur uid entry reqLevel (mgr.checkReqLevel entry.clkSrcId reqLevel)
      (clkRate.setWidth 32) numHwBlocks).2

def Counted : Throttle → Prop
  | .taken _ throttled saving =>
    throttled ≠ uid ∧ ∀ other ∈ mgr.clkClientTbl[throttled]?,
      saving.toNat + other.throttle.load (mgr.checkReqLevel entry.clkSrcId reqLevel) =
          other.load (mgr.checkReqLevel entry.clkSrcId reqLevel) ∧
        max reqLevel (highest ((mgr.clkClientTbl.set throttled other.throttle).eraseIdx uid)) =
          mgr.checkReqLevel entry.clkSrcId reqLevel
  | _ => True

structure Steady : Prop where
  fits : clkRate.setWidth 32 = 0 → clkRate = 0
  most : mgr.LastNeedsMost entry.clkSrcId reqLevel
  small : mgr.requestTotal uid entry reqLevel clkRate numHwBlocks < 2 ^ 31
  counted : mgr.threshold.toNat ≤ mgr.requestTotal uid entry reqLevel clkRate numHwBlocks →
    mgr.Counted uid entry reqLevel (mgr.requestThrottle uid entry reqLevel clkRate numHwBlocks calls)

/-- The request stays below the threshold, or the client that is throttled for it makes up for what
is too much. -/
def Headroom : Prop :=
  mgr.requestTotal uid entry reqLevel clkRate numHwBlocks < mgr.threshold.toNat ∨
    match mgr.requestThrottle uid entry reqLevel clkRate numHwBlocks calls with
    | .taken _ _ saving => mgr.requestTotal uid entry reqLevel clkRate numHwBlocks <
        mgr.threshold.toNat + saving.toNat
    | _ => False

instance (found : Throttle) : Decidable (mgr.Counted uid entry reqLevel found) := by
  unfold Counted
  split <;> infer_instance

instance : Decidable (mgr.Headroom uid entry reqLevel clkRate numHwBlocks calls) := by
  unfold Headroom
  split <;> infer_instance

instance : Decidable (mgr.Steady uid entry reqLevel clkRate numHwBlocks calls) :=
  decidable_of_iff
    ((clkRate.setWidth 32 = 0 → clkRate = 0) ∧ mgr.LastNeedsMost entry.clkSrcId reqLevel ∧
      mgr.requestTotal uid entry reqLevel clkRate numHwBlocks < 2 ^ 31 ∧
      (mgr.threshold.toNat ≤ mgr.requestTotal uid entry reqLevel clkRate numHwBlocks →
        mgr.Counted uid entry reqLevel
          (mgr.requestThrottle uid entry reqLevel clkRate numHwBlocks calls)))
    ⟨fun ⟨fits, most, small, counted⟩ => ⟨fits, most, small, counted⟩,
      fun ⟨fits, most, small, counted⟩ => ⟨fits, most, small, counted⟩⟩

end Request

theorem total_set_others {mgr : SwClkMgr Clk} {uid other : Nat} {entry old : ClkClientTblEntry Clk}
    (apart : other ≠ uid) (here : mgr.clkClientTbl[uid]? = some entry)
    (there : mgr.clkClientTbl[other]? = some old) (next : ClkClientTblEntry Clk)
    (level : VddLevel) :
    total ((mgr.clkClientTbl.set other next).eraseIdx uid) level + old.load level =
      next.load level + total (mgr.clkClientTbl.eraseIdx uid) level := by
  have here' : (mgr.clkClientTbl.set other next)[uid]? = some entry := by
    rw [List.getElem?_set_ne apart]
    exact here
  have before := total_eraseIdx here level
  have after := total_eraseIdx here' level
  have replaced := total_set there next level
  have whole := total_eraseIdx there level
  omega

structure Inv (mgr : SwClkMgr Clk) : Prop where
  ordered : mgr.Ordered
  accounted : mgr.Accounted

section Granting

variable {framework : ClkFramework Clk} {mgr mgr' final : SwClkMgr Clk} {uid : Nat}
  {entry next : ClkClientTblEntry Clk} {reqLevel : VddLevel} {clkRate : BitVec 64}
  {numHwBlocks : BitVec 32} {calls : SetvalCalls}

/-- What the request adds up to in the end: what it asks for, or that without the saving of a client
that is throttled. -/
def Outcome (mgr final : SwClkMgr Clk) (uid : Nat) (entry : ClkClientTblEntry Clk)
    (reqLevel : VddLevel) (clkRate : BitVec 64) (numHwBlocks : BitVec 32) (calls : SetvalCalls) :
    Prop :=
  total final.clkClientTbl final.aggregLevel =
      mgr.requestTotal uid entry reqLevel clkRate numHwBlocks ∧
    (mgr.requestTotal uid entry reqLevel clkRate numHwBlocks = 0 ∨
      mgr.requestTotal uid entry reqLevel clkRate numHwBlocks < mgr.threshold.toNat ∨
      mgr.requestThrottle uid entry reqLevel clkRate numHwBlocks calls = .nobody false) ∨
  mgr.threshold.toNat ≤ mgr.requestTotal uid entry reqLevel clkRate numHwBlocks ∧
    ∃ tableId throttled saving,
      mgr.requestThrottle uid entry reqLevel clkRate numHwBlocks calls =
        .taken tableId throttled saving ∧
      total final.clkClientTbl final.aggregLevel + saving.toNat =
        mgr.requestTotal uid entry reqLevel clkRate numHwBlocks

/-- What a request that comes through the peak check makes of the table: the entry of the client,
and that of one it throttles. -/
theorem grant_cases (inv : mgr.Inv) (here : mgr.clkClientTbl[uid]? = some entry)
    (registered : entry.client = true)
    (steady : mgr.Steady uid entry reqLevel clkRate numHwBlocks calls)
    {grant : ClkClientTblEntry Clk → ClkClientTblEntry Clk}
    (demand : (grant entry).demand = reqLevel)
    (load : ∀ level, (grant entry).load level =
      requestLoad entry reqLevel level clkRate numHwBlocks)
    (tidy : (grant entry).Tidy) (same : (grant entry).clkSrcId = entry.clkSrcId)
    (passed : mgr.checkPeakCurrent uid entry reqLevel (clkRate.setWidth 32) numHwBlocks calls =
      .ok mgr')
    (table : final.clkClientTbl = mgr'.clkClientTbl.modify uid grant)
    (val : final.aggregVal = mgr'.aggregVal) (level : final.aggregLevel = mgr'.aggregLevel) :
    final.Inv ∧ mgr.Outcome final uid entry reqLevel clkRate numHwBlocks calls := by
  have found := inv.ordered.checkReqLevel_eq inv.accounted.level here registered steady.most
  have sum_toNat : (BitVec.ofNat 32
      (mgr.requestTotal uid entry reqLevel clkRate numHwBlocks)).toNat =
        mgr.requestTotal uid entry reqLevel clkRate numHwBlocks := by
    rw [BitVec.toNat_ofNat]
    exact Nat.mod_eq_of_lt (steady.small.trans (by decide))
  have summed := (peakCur_sum inv.ordered inv.accounted here registered steady.fits reqLevel
    (mgr.checkReqLevel entry.clkSrcId reqLevel) numHwBlocks).symm
  have settled (atLevel : final.aggregLevel = mgr.checkReqLevel entry.clkSrcId reqLevel)
      (toTable : final.clkClientTbl = mgr.clkClientTbl.modify uid grant)
      (toVal : final.aggregVal.toNat =
        mgr.requestTotal uid entry reqLevel clkRate numHwBlocks) :
      final.Inv ∧ total final.clkClientTbl final.aggregLevel =
        mgr.requestTotal uid entry reqLevel clkRate numHwBlocks := by
    rw [modify_of_getElem? here] at toTable
    have accounted : final.Accounted := Accounted.of_set here toTable
      (by rw [atLevel, found, demand]) (by rw [toVal, atLevel, load]; rfl)
    exact ⟨⟨inv.ordered.set here toTable tidy same fun _ => inv.ordered.isFirst here registered,
      accounted⟩, accounted.val.symm.trans toVal⟩
  rcases checkPeakCurrent_cases rfl summed rfl passed with
    ⟨nothing, rfl⟩ | ⟨within, rfl⟩ | ⟨overshoot, tableId, throttled, saving, taken, rfl⟩
  · have isZero : mgr.requestTotal uid entry reqLevel clkRate numHwBlocks = 0 := by
      rw [← requestTotal] at nothing
      have small := steady.small
      rw [BitVec.toInt_eq_toNat_of_lt (by rw [sum_toNat]; omega), sum_toNat] at nothing
      omega
    obtain ⟨inv', sum⟩ := settled level table (by rw [val, isZero]; rfl)
    exact ⟨inv', Or.inl ⟨sum, Or.inl isZero⟩⟩
  · obtain ⟨inv', sum⟩ := settled level table (by rw [val]; exact sum_toNat)
    refine ⟨inv', Or.inl ⟨sum, Or.inr (within.imp_left fun below => ?_)⟩⟩
    rw [BitVec.not_le, BitVec.lt_def] at below
    rwa [← sum_toNat]
  · have overshoot : mgr.threshold.toNat ≤
        mgr.requestTotal uid entry reqLevel clkRate numHwBlocks := by
      rw [BitVec.le_def] at overshoot
      rwa [← sum_toNat]
    obtain ⟨other, there, enabled, throttledTable⟩ := inv.ordered.throttled taken
    obtain ⟨apart, counted⟩ : mgr.Counted uid entry reqLevel (.taken tableId throttled saving) := by
      have counted := steady.counted overshoot
      rwa [requestThrottle, taken] at counted
    obtain ⟨saved, kept⟩ := counted other there
    have here' : (mgr.clkClientTbl.set throttled other.throttle)[uid]? = some entry := by
      rw [List.getElem?_set_ne apart]
      exact here
    have moved := total_set_others apart here there other.throttle
      (mgr.checkReqLevel entry.clkSrcId reqLevel)
    have sum : total ((mgr.clkClientTbl.set throttled other.throttle).eraseIdx uid)
        (mgr.checkReqLevel entry.clkSrcId reqLevel) + saving.toNat =
        total (mgr.clkClientTbl.eraseIdx uid) (mgr.checkReqLevel entry.clkSrcId reqLevel) := by
      omega
    have enough : saving.toNat ≤ mgr.requestTotal uid entry reqLevel clkRate numHwBlocks := by
      rw [requestTotal]
      omega
    have atLevel : final.aggregLevel = mgr.checkReqLevel entry.clkSrcId reqLevel := level
    have toTable : final.clkClientTbl =
        (mgr.clkClientTbl.set throttled other.throttle).set uid (grant entry) := by
      rw [← modify_of_getElem? here', ← throttledTable]
      exact table
    have toVal : final.aggregVal.toNat =
        mgr.requestTotal uid entry reqLevel clkRate numHwBlocks - saving.toNat := by
      have less : saving ≤ BitVec.ofNat 32
          (mgr.requestTotal uid entry reqLevel clkRate numHwBlocks) := by
        rwa [BitVec.le_def, sum_toNat]
      rw [val]
      exact (BitVec.toNat_sub_of_le less).trans (congrArg (· - saving.toNat) sum_toNat)
    have accounted : final.Accounted := Accounted.of_set here' toTable
      (by rw [atLevel, ← kept, demand]) (by rw [toVal, atLevel, load, requestTotal]; omega)
    have ordered : Ordered
        { mgr with clkClientTbl := mgr.clkClientTbl.set throttled other.throttle } :=
      inv.ordered.set there rfl ((inv.ordered.tidy_of_getElem? there).throttle enabled) rfl
        fun _ => inv.ordered.isFirst there enabled.1
    refine ⟨⟨ordered.set here' toTable tidy same ?_, accounted⟩, Or.inr ⟨overshoot, tableId,
      throttled, saving, taken, ?_⟩⟩
    · exact fun _ => ordered.isFirst here' registered
    · rw [← accounted.val, toVal]
      omega

theorem Inv.set (inv : mgr.Inv) (here : mgr.clkClientTbl[uid]? = some entry)
    (table : final.clkClientTbl = mgr.clkClientTbl.set uid next)
    (val : final.aggregVal = mgr.aggregVal) (level : final.aggregLevel = mgr.aggregLevel)
    (load : next.load mgr.aggregLevel = entry.load mgr.aggregLevel)
    (demand : max next.demand (highest (mgr.clkClientTbl.eraseIdx uid)) =
      highest mgr.clkClientTbl) (tidy : next.Tidy) (same : next.clkSrcId = entry.clkSrcId)
    (isFirst : next.client = true → ∀ (i : Nat) (other : ClkClientTblEntry Clk), i < uid →
      mgr.clkClientTbl[i]? = some other → other.clkSrcId ≠ entry.clkSrcId) : final.Inv where
  ordered := inv.ordered.set here table tidy same isFirst
  accounted := by
    refine .of_set here table ?_ ?_
    · rw [level, inv.accounted.level, demand]
    · rw [val, level, load, inv.accounted.val, total_eraseIdx here]

end Granting

/-! ### Steps -/

inductive Op (Clk : Type)
  | register (desc : ClkClientDesc Clk)
  | deregister (uid : Nat)
  | setval (uid : Nat) (clientData : ClientData) (clkVal : BitVec 64) (calls : SetvalCalls)

section Steps

variable (framework : ClkFramework Clk) (mgr : SwClkMgr Clk)

def step : Op Clk → Option (SwClkMgr Clk)
  | .register desc => some (mgr.register desc).1
  | .deregister uid => some (mgr.deregister uid).1
  | .setval uid clientData clkVal calls => some (mgr.setval framework uid clientData clkVal calls).1

def SetvalSteady (uid : Nat) (clientData : ClientData) (clkVal : BitVec 64) (calls : SetvalCalls)
    (entry : ClkClientTblEntry Clk) : Prop :=
  match plan framework entry clientData clkVal with
  | .check reqLevel clkRate _ =>
    match mgr.checkPeakCurrent uid entry reqLevel (clkRate.setWidth 32) clientData.numHwBlocks
        calls with
    | .ok _ => mgr.Steady uid entry reqLevel clkRate clientData.numHwBlocks calls
    | .error _ => True
  | _ => True

/-- The last reference to a client is given up when the client draws nothing and the others need the
level of the rail, and the requests that are granted are steady. -/
def Careful : Op Clk → Prop
  | .register _ => True
  | .deregister uid => ∀ entry ∈ mgr.clkClientTbl[uid]?, entry.refCount ≤ 1 →
      entry.load mgr.aggregLevel = 0 ∧ highest (mgr.clkClientTbl.eraseIdx uid) = mgr.aggregLevel
  | .setval uid clientData clkVal calls => ∀ entry ∈ mgr.clkClientTbl[uid]?,
      mgr.SetvalSteady framework uid clientData clkVal calls entry

instance (uid : Nat) (clientData : ClientData) (clkVal : BitVec 64) (calls : SetvalCalls)
    (entry : ClkClientTblEntry Clk) :
    Decidable (mgr.SetvalSteady framework uid clientData clkVal calls entry) := by
  unfold SetvalSteady
  split
  · split <;> infer_instance
  · infer_instance

instance (op : Op Clk) : Decidable (mgr.Careful framework op) := by
  unfold Careful
  split <;> infer_instance

/-- As `mmrm_init_sw_clk_mgr` leaves it: a table of free entries. -/
structure Start : Prop where
  free : ∀ entry ∈ mgr.clkClientTbl, entry.client = false ∧ entry.clk = none ∧
    entry.clkRate = 0 ∧ entry.vddLevel = 0
  aggregVal : mgr.aggregVal = 0
  aggregLevel : mgr.aggregLevel = 0
  throttledClients : mgr.throttledClients = []

end Steps

section Runs

variable {framework : ClkFramework Clk} {mgr mgr' final : SwClkMgr Clk} {op : Op Clk}

theorem Inv.of_start (start : mgr.Start) : mgr.Inv := by
  have idle : ∀ entry ∈ mgr.clkClientTbl, entry.clkRate = 0 := fun entry member =>
    (start.free entry member).2.2.1
  refine ⟨⟨fun entry member => ?_, fun i j entry other _ _ there _ =>
    (start.free other (List.mem_of_getElem? there)).1⟩, ?_, ?_⟩
  · obtain ⟨-, clockless, rate, lowest⟩ := start.free entry member
    exact ⟨fun _ => clockless, fun _ => rate, fun _ => lowest⟩
  · rw [start.aggregLevel]
    refine le_antisymm (Fin.zero_le _) (highest_le fun entry member => ?_)
    rw [demand_of_idle (idle entry member)]
  · rw [start.aggregVal, total, List.map_congr_left fun entry member =>
      load_of_idle (idle entry member) mgr.aggregLevel, List.map_const', List.sum_replicate]
    rfl

theorem Inv.register (inv : mgr.Inv) (desc : ClkClientDesc Clk) : (mgr.register desc).1.Inv := by
  unfold SwClkMgr.register
  split
  · exact inv
  · rename_i uid found
    split
    · exact inv
    · rename_i entry here
      have tidy := inv.ordered.tidy_of_getElem? here
      split
      · rename_i registered
        split
        · exact inv.set here rfl rfl rfl rfl (highest_eraseIdx here).symm ⟨tidy.unregistered, tidy.clockless, tidy.resting⟩
            rfl fun _ => inv.ordered.isFirst here registered
        · exact inv
      · rename_i free
        obtain ⟨rate, lowest, source, clockless⟩ := registerFree_rate entry desc
        have idle := tidy.clockless (tidy.unregistered (Bool.eq_false_iff.mpr free))
        refine inv.set here rfl rfl rfl ?_ ?_ ⟨clockless, fun _ => rate.trans idle,
          fun _ => lowest.trans (tidy.resting idle)⟩ source fun _ i other before there => ?_
        · rw [load_of_idle (rate.trans idle), load_of_idle idle]
        · rw [demand_of_idle (rate.trans idle), highest_eraseIdx here, demand_of_idle idle]
        · obtain ⟨inside, here', others⟩ := List.findIdx?_eq_some_iff_getElem.mp found
          obtain ⟨_, rfl⟩ := List.getElem?_eq_some_iff.mp there
          obtain ⟨_, rfl⟩ := List.getElem?_eq_some_iff.mp here
          rw [of_decide_eq_true here']
          exact of_decide_eq_false (Bool.eq_false_iff.mpr (others i before))

theorem deregister_cases (entry : ClkClientTblEntry Clk) :
    entry.deregister.clkSrcId = entry.clkSrcId ∧
      ((entry.refCount ≤ 1 ∧ entry.deregister.client = false ∧ entry.deregister.clk = none ∧
        entry.deregister.clkRate = 0 ∧ entry.deregister.vddLevel = 0) ∨
      entry.deregister = { entry with refCount := entry.refCount - 1 }) := by
  unfold ClkClientTblEntry.deregister
  by_cases counted : 0 < entry.refCount
  · simp only [if_pos counted]
    split
    · rename_i last
      refine ⟨rfl, Or.inl ⟨?_, rfl, rfl, rfl, rfl⟩⟩
      change entry.refCount - 1 = 0 at last
      bv_omega
    · exact ⟨rfl, Or.inr rfl⟩
  · simp only [if_neg counted]
    have isZero : entry.refCount = 0 := by bv_omega
    rw [if_pos isZero]
    exact ⟨rfl, Or.inl ⟨by rw [isZero]; decide, rfl, rfl, rfl, rfl⟩⟩

theorem Inv.deregister (inv : mgr.Inv) {uid : Nat}
    (careful : mgr.Careful framework (.deregister uid)) : (mgr.deregister uid).1.Inv := by
  unfold SwClkMgr.deregister
  split
  · exact inv
  · rename_i inside
    have here := List.getElem?_eq_getElem (Nat.not_le.mp inside)
    generalize mgr.clkClientTbl[uid] = entry at here
    have tidy := inv.ordered.tidy_of_getElem? here
    have table := modify_of_getElem? here ClkClientTblEntry.deregister
    obtain ⟨source, ⟨last, free, clockless, idle, lowest⟩ | counted⟩ := deregister_cases entry
    · obtain ⟨nothing, others⟩ := careful entry here last
      refine inv.set here table rfl rfl ?_ ?_ ⟨fun _ => clockless, fun _ => idle, fun _ => lowest⟩
        source fun registered => ?_
      · rw [load_of_idle idle, nothing]
      · rw [demand_of_idle idle, others, inv.accounted.level]
        exact max_eq_right (Fin.zero_le _)
      · rw [free] at registered
        cases registered
    · rw [counted] at table
      exact inv.set here table rfl rfl rfl (highest_eraseIdx here).symm ⟨tidy.unregistered, tidy.clockless, tidy.resting⟩ rfl
        fun registered => inv.ordered.isFirst here registered

theorem setval_cases (inv : mgr.Inv) {uid : Nat} {entry : ClkClientTblEntry Clk}
    {clientData : ClientData} {clkVal clkRate : BitVec 64} {reqLevel : VddLevel} {maxRateIdx : Nat}
    {calls : SetvalCalls} (here : mgr.clkClientTbl[uid]? = some entry)
    (planned : plan framework entry clientData clkVal = .check reqLevel clkRate maxRateIdx)
    (passed : mgr.checkPeakCurrent uid entry reqLevel (clkRate.setWidth 32) clientData.numHwBlocks
      calls = .ok mgr')
    (steady : mgr.Steady uid entry reqLevel clkRate clientData.numHwBlocks calls)
    (table : final.clkClientTbl =
      mgr'.clkClientTbl.modify uid (granted clientData clkVal reqLevel clkRate maxRateIdx))
    (val : final.aggregVal = mgr'.aggregVal) (level : final.aggregLevel = mgr'.aggregLevel) :
    final.Inv ∧ mgr.Outcome final uid entry reqLevel clkRate clientData.numHwBlocks calls := by
  obtain ⟨clocked, lowest⟩ := plan_check planned
  have registered := (inv.ordered.tidy_of_getElem? here).client clocked.choose_spec
  exact grant_cases inv here registered steady
    (demand_granted registered lowest clkVal maxRateIdx)
    (fun level => load_granted registered clkVal reqLevel level clkRate maxRateIdx)
    (tidy_granted clocked registered lowest clkVal maxRateIdx)
    (granted_facts clientData clkVal reqLevel clkRate maxRateIdx entry).1 passed table val level

theorem Inv.setval (inv : mgr.Inv) {uid : Nat} {clientData : ClientData} {clkVal : BitVec 64}
    {calls : SetvalCalls}
    (careful : mgr.Careful framework (.setval uid clientData clkVal calls)) :
    (mgr.setval framework uid clientData clkVal calls).1.Inv := by
  unfold SwClkMgr.setval
  split
  · exact inv
  · rename_i entry here
    have careful := careful entry here
    have tidy := inv.ordered.tidy_of_getElem? here
    dsimp only
    split
    · exact inv
    · exact inv.set here rfl rfl rfl rfl (highest_eraseIdx here).symm
        ⟨tidy.unregistered, tidy.clockless, tidy.resting⟩ rfl fun registered =>
          inv.ordered.isFirst here registered
    · rename_i reqLevel clkRate maxRateIdx planned
      split
      · exact inv
      · rename_i mgr' passed
        simp only [SetvalSteady, planned, passed] at careful
        refine And.left (setval_cases inv here planned passed careful ?_ ?_ ?_) <;> rfl

theorem Inv.step (inv : mgr.Inv) (taken : StepOf (step framework) (Careful framework) mgr mgr') :
    mgr'.Inv := by
  obtain ⟨op, careful, taken⟩ := taken
  cases op with
  | register desc =>
    cases taken
    exact inv.register desc
  | deregister uid =>
    cases taken
    exact inv.deregister careful
  | setval uid clientData clkVal calls =>
    cases taken
    exact inv.setval careful

theorem inv_of_reachable
    (reached : Reachable Start (StepOf (SwClkMgr.step framework) (Careful framework)) mgr) :
    mgr.Inv :=
  reached.invariant (fun _ start => Inv.of_start start) fun _ _ inv taken => inv.step taken

/-- In every run of careful operations the aggregates are the level and the sum they stand for. -/
theorem aggregates_of_reachable
    (reached : Reachable Start (StepOf (SwClkMgr.step framework) (Careful framework)) mgr) :
    mgr.Accounted := (inv_of_reachable reached).accounted

end Runs

/-! ### Three clients -/

def sampleFramework : ClkFramework Unit where
  roundRate := fun _ rate => rate
  getVoltage := fun _ rate => 64 * rate.toNat
  vddCorner := fun level => 64 * (level.val + 1)

attribute [local instance] vddLevels_neZero in
def sampleEntry (clkSrcId : BitVec 32) : ClkClientTblEntry Unit where
  clkSrcId := clkSrcId
  client := false
  clk := none
  pri := none
  notifierCbFn := false
  maxNumHwBlocks := 1
  freq := fun _ => 0
  currentMa := fun _ _ => 0
  clkRate := 0
  vddLevel := 0
  reserve := false
  refCount := 0
  numHwBlocks := 0
  isCrmClient := false
  hwDrvInstances := 0
  numPwrStates := 0
  maxRateIdx := 0
  crmClientTbl := []

attribute [local instance] vddLevels_neZero in
def sampleStart (threshold : BitVec 32) : SwClkMgr Unit where
  clkClientTbl := [1, 2, 3].map sampleEntry
  throttleClientsInfo := []
  threshold := threshold
  aggregVal := 0
  aggregLevel := 0
  throttledClients := []

theorem sampleStart_start (threshold : BitVec 32) : (sampleStart threshold).Start where
  free := by
    intro entry member
    obtain ⟨clkSrcId, -, rfl⟩ := List.mem_map.mp member
    exact ⟨rfl, rfl, rfl, rfl⟩
  aggregVal := rfl
  aggregLevel := rfl
  throttledClients := rfl

def sampleDesc (clkSrcId : BitVec 32) (pri : Priority) : ClkClientDesc Unit where
  clkSrcId := clkSrcId
  clk := some ()
  pri := pri
  notifierCbFn := false
  hwDrvInstances := 0
  numPwrStates := 0
  allowMultipleRegister := false
  clientAllocated := true
  crmTblAllocated := true
  freq := fun level => BitVec.ofNat 64 (level.val + 1)
  currentMa := fun level _ => BitVec.ofNat 32 (10 * (level.val + 1))
  currUpdated := true

def sampleCalls : SetvalCalls := ⟨true, fun _ => true, fun _ => true, true, true⟩

def sampleSet (uid : Nat) (clkVal : BitVec 64) : Op Unit :=
  .setval uid ⟨1, false, .sw, 0, 0⟩ clkVal sampleCalls

def sampleOps : List (Op Unit) :=
  [.register (sampleDesc 1 .low), .register (sampleDesc 2 .low), .register (sampleDesc 3 .high),
    sampleSet 0 3, sampleSet 1 2, sampleSet 2 4]

theorem sampleOps_taken :
    (play (step sampleFramework) (Careful sampleFramework) (sampleStart 1000) sampleOps).isSome := by
  decide +kernel

theorem sampleOps_accounted :
    ((play (step sampleFramework) (Careful sampleFramework) (sampleStart 1000) sampleOps).get
      sampleOps_taken).Accounted :=
  aggregates_of_reachable (play_reachable (.start (sampleStart_start 1000)) sampleOps_taken)

theorem sampleStop_taken :
    (play (step sampleFramework) (fun _ _ => True) (sampleStart 1000)
      (sampleOps ++ [sampleSet 2 0])).isSome := by
  decide +kernel

/-- The client at the highest level stops, and the level of the rail falls below that of another
client. -/
theorem sampleStop_not_accounted : ∃ mgr,
    Reachable Start (StepOf (step sampleFramework) fun _ _ => True) mgr ∧
      mgr.aggregLevel < highest mgr.clkClientTbl ∧ ¬ mgr.Accounted := by
  refine ⟨_, play_reachable (.start (sampleStart_start 1000)) sampleStop_taken,
    by decide +kernel, fun accounted => ?_⟩
  exact absurd accounted.level (by decide +kernel)

end SwClkMgr

end VendorModules.MmrmClk
