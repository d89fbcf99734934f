import Mathlib

namespace VendorModules.MmrmClk

/-! The software clock manager: clients register a clock, ask for rates, and are refused or throttled
when the sum of the currents would reach the peak threshold. -/

inductive Errno
  | einval | enomem | enotify
  deriving DecidableEq, Repr

/-- `enum mmrm_sw_vdd_levels`, from low SVS to turbo. -/
abbrev VddLevel := Fin 6

theorem vddLevels_neZero : NeZero 6 := ⟨by decide⟩

inductive Priority
  | high | low
  deriving DecidableEq, Repr

/-- `MMRM_CRM_SW_DRV` and `MMRM_CRM_HW_DRV`. -/
inductive DrvType
  | sw | hw
  deriving DecidableEq, Repr

structure ClkFramework (Clk : Type) where
  roundRate : Clk → BitVec 64 → BitVec 64
  getVoltage : Clk → BitVec 64 → Int
  vddCorner : VddLevel → Int

/-- `struct mmrm_sw_clk_client_tbl_entry`. A clock that is NULL or an error is none. -/
structure ClkClientTblEntry (Clk : Type) where
  clkSrcId : BitVec 32
  client : Bool
  clk : Option Clk
  pri : Option Priority
  notifierCbFn : Bool
  maxNumHwBlocks : BitVec 32
  freq : VddLevel → BitVec 64
  currentMa : VddLevel → VddLevel → BitVec 32
  clkRate : BitVec 64
  vddLevel : VddLevel
  reserve : Bool
  refCount : BitVec 32
  numHwBlocks : BitVec 32
  isCrmClient : Bool
  hwDrvInstances : Nat
  numPwrStates : Nat
  maxRateIdx : Nat
  crmClientTbl : List (BitVec 64)

/-- `struct mmrm_sw_throttled_clients_data`. -/
structure ThrottledClient where
  tableId : Nat
  deltaCuMa : BitVec 32
  prevVddLevel : VddLevel

/-- `struct mmrm_sw_clk_mgr_info`. -/
structure SwClkMgr (Clk : Type) where
  clkClientTbl : List (ClkClientTblEntry Clk)
  /-- The table entries of `throttle_clients_info`. -/
  throttleClientsInfo : List Nat
  threshold : BitVec 32
  aggregVal : BitVec 32
  aggregLevel : VddLevel
  throttledClients : List ThrottledClient

/-- `struct mmrm_clk_client_desc`, the priority, and what becomes of the calls a registration
makes: the rates and currents that `mmrm_sw_update_freq` and `mmrm_sw_update_curr` fill in. -/
structure ClkClientDesc (Clk : Type) where
  clkSrcId : BitVec 32
  clk : Option Clk
  pri : Priority
  notifierCbFn : Bool
  hwDrvInstances : Nat
  numPwrStates : Nat
  allowMultipleRegister : Bool
  clientAllocated : Bool
  crmTblAllocated : Bool
  freq : VddLevel → BitVec 64
  currentMa : VddLevel → VddLevel → BitVec 32
  currUpdated : Bool

/-- `struct mmrm_client_data`. -/
structure ClientData where
  numHwBlocks : BitVec 32
  reserveOnly : Bool
  drvType : DrvType
  crmDrvIdx : Nat
  pwrSt : Nat

/-- What becomes of the calls that a set-value request makes, by the place in the list of
throttle clients, and `msm_mmrm_enable_throttle_feature`. -/
structure SetvalCalls where
  enableThrottleFeature : Bool
  notified : Nat → Bool
  throttled : Nat → Bool
  allocated : Bool
  rateSet : Bool

variable {Clk : Type}

namespace ClkClientTblEntry

variable (entry : ClkClientTblEntry Clk)

def active : Bool := entry.clk.isSome && entry.clkRate != 0

def current (level : VddLevel) : BitVec 32 :=
  entry.currentMa entry.vddLevel level * entry.numHwBlocks

/-! ### The rate of a client of the resource manager -/

def newValIdx (clientData : ClientData) : Nat :=
  match clientData.drvType with
  | .sw => entry.crmClientTbl.length - 1
  | .hw => entry.numPwrStates * clientData.crmDrvIdx + clientData.pwrSt

def scanCrmTbl (apart : Nat) : List (BitVec 64) → Nat → BitVec 64 × Nat → BitVec 64 × Nat
  | [], _, best => best
  | val :: rest, i, best =>
    scanCrmTbl apart rest (i + 1)
      (if i = apart then best else if best.1 < val then (val, i) else best)

/-- `mmrm_sw_get_max_crm_rate`. -/
def getMaxCrmRate (clientData : ClientData) (newClkVal : BitVec 64) : BitVec 64 × Nat :=
  if entry.clkRate < newClkVal then (newClkVal, entry.newValIdx clientData)
  else if entry.newValIdx clientData = entry.maxRateIdx then
    let best := scanCrmTbl entry.maxRateIdx entry.crmClientTbl 0 (0, entry.maxRateIdx)
    if best.1 ≤ newClkVal then (newClkVal, entry.maxRateIdx) else best
  else (entry.clkRate, entry.maxRateIdx)

/-! ### Registration -/

/-- The end of `mmrm_sw_clk_client_register` when it fails. -/
def unregistered : ClkClientTblEntry Clk :=
  { entry with client := false, clk := none, pri := none, notifierCbFn := false }

def withoutCrm : ClkClientTblEntry Clk :=
  { entry with
    isCrmClient := false
    maxRateIdx := 0
    hwDrvInstances := 0
    numPwrStates := 0
    crmClientTbl := [] }

/-- `mmrm_sw_clk_client_register` for an entry that is free. -/
def registerFree (desc : ClkClientDesc Clk) : ClkClientTblEntry Clk × Except Errno Unit :=
  if !desc.clientAllocated then (entry.unregistered, .error .enomem)
  else
    let entry := { entry with
      refCount := 1
      client := true
      clk := desc.clk
      pri := some desc.pri
      notifierCbFn := desc.notifierCbFn }
    if 6 < desc.hwDrvInstances ∨ 5 < desc.numPwrStates then (entry.unregistered, .error .einval)
    else
      let isCrm := 0 < desc.hwDrvInstances ∧ 0 < desc.numPwrStates
      if isCrm ∧ desc.crmTblAllocated = false then
        ({ entry with crmClientTbl := [] }.unregistered, .error .enomem)
      else
        let entry := if isCrm then
          { entry with
            crmClientTbl := List.replicate (desc.hwDrvInstances * desc.numPwrStates + 1) 0
            isCrmClient := true
            maxRateIdx := 0
            hwDrvInstances := desc.hwDrvInstances
            numPwrStates := desc.numPwrStates }
          else entry
        let entry := { entry with freq := desc.freq }
        if desc.currUpdated then ({ entry with currentMa := desc.currentMa }, .ok ())
        else (entry.withoutCrm.unregistered, .error .einval)

/-- `mmrm_sw_clk_client_deregister`, for its entry. -/
def deregister : ClkClientTblEntry Clk :=
  let entry := if 0 < entry.refCount then { entry with refCount := entry.refCount - 1 } else entry
  if entry.refCount = 0 then
    { entry.withoutCrm.unregistered with vddLevel := 0, clkRate := 0 }
  else entry

/-! ### Levels -/

/-- `mmrm_sw_get_req_level`. -/
def getReqLevel (framework : ClkFramework Clk) (clk : Clk) (clkVal : BitVec 64) :
    Option VddLevel :=
  let voltageCorner := framework.getVoltage clk (framework.roundRate clk clkVal)
  if voltageCorner < 0 ∨ framework.vddCorner 5 < voltageCorner then none
  else if voltageCorner < framework.vddCorner 0 then some 0
  else (List.finRange 6).find? fun level => voltageCorner = framework.vddCorner level

/-- The rest of the loop of `mmrm_sw_check_req_level`, with the level of `next_max_entry`. -/
def scanReqLevel (clkSrcId : BitVec 32) (aggregLevel reqLevel : VddLevel) :
    List (ClkClientTblEntry Clk) → Option VddLevel → VddLevel
  | [], none => reqLevel
  | [], some nextMax => if reqLevel < nextMax then nextMax else reqLevel
  | entry :: rest, nextMax =>
    if entry.active = false ∨ entry.clkSrcId = clkSrcId then
      scanReqLevel clkSrcId aggregLevel reqLevel rest nextMax
    else if entry.vddLevel = aggregLevel then aggregLevel
    else
      scanReqLevel clkSrcId aggregLevel reqLevel rest
        (if entry.vddLevel < aggregLevel ∧ reqLevel < entry.vddLevel then some entry.vddLevel
        else nextMax)

def throttle : ClkClientTblEntry Clk :=
  { entry with clkRate := entry.freq 0, vddLevel := 0, reserve := false }

end ClkClientTblEntry

namespace SwClkMgr

variable (framework : ClkFramework Clk) (mgr : SwClkMgr Clk)

/-- `mmrm_sw_check_req_level`. -/
def checkReqLevel (clkSrcId : BitVec 32) (reqLevel : VddLevel) : VddLevel :=
  if reqLevel < mgr.aggregLevel then
    ClkClientTblEntry.scanReqLevel clkSrcId mgr.aggregLevel reqLevel mgr.clkClientTbl none
  else reqLevel

/-- `mmrm_sw_calculate_total_current`, of all entries but one. -/
def calculateTotalCurrent (reqLevel : VddLevel) (uid : Nat) : BitVec 32 :=
  ((mgr.clkClientTbl.eraseIdx uid).map fun entry =>
    if entry.active then entry.current reqLevel else 0).sum

/-! ### Throttling -/

/-- How the search for a client to throttle ends: nobody is found, the bookkeeping cannot be
allocated, or a client is throttled. -/
inductive Throttle
  | nobody (failed : Bool)
  | noMemory
  | taken (tableId uid : Nat) (saving : BitVec 32)

/-- The loop of `mmrm_sw_throttle_low_priority_client` from one place on, with the `rc` it has. -/
def throttleFrom (calls : SetvalCalls) (deltaCur : BitVec 32) : Nat → List Nat → Bool → Throttle
  | _, [], failed => .nobody failed
  | i, uid :: rest, failed =>
    match mgr.clkClientTbl[uid]? with
    | none => throttleFrom calls deltaCur (i + 1) rest failed
    | some entry =>
      let nowCurMa := entry.currentMa entry.vddLevel mgr.aggregLevel
      let minCurMa := entry.currentMa 0 mgr.aggregLevel
      if nowCurMa ≤ minCurMa ∨ nowCurMa - minCurMa ≤ deltaCur then
        throttleFrom calls deltaCur (i + 1) rest failed
      else if (if entry.notifierCbFn then !calls.notified i else failed) then
        throttleFrom calls deltaCur (i + 1) rest false
      else if entry.reserve = false ∧ calls.throttled i = false then
        throttleFrom calls deltaCur (i + 1) rest true
      else if calls.allocated then .taken i uid (nowCurMa - minCurMa)
      else .noMemory

/-- `mmrm_sw_throttle_low_priority_client`. -/
def throttleLowPriorityClient (calls : SetvalCalls) (deltaCur : BitVec 32) : Throttle :=
  mgr.throttleFrom calls deltaCur 0 mgr.throttleClientsInfo false

def throttle (tableId uid : Nat) (saving : BitVec 32) : SwClkMgr Clk :=
  { mgr with
    clkClientTbl := mgr.clkClientTbl.modify uid ClkClientTblEntry.throttle
    throttledClients := mgr.throttledClients ++
      ((mgr.clkClientTbl[uid]?).map fun entry => ⟨tableId, saving, entry.vddLevel⟩).toList }

/-- `mmrm_reinstate_throttled_client`: its clients are told, and raise their rates themselves. -/
def reinstateThrottledClient : SwClkMgr Clk :=
  { mgr with
    throttledClients := mgr.throttledClients.filter fun client =>
      ¬ mgr.aggregVal + client.deltaCuMa ≤ mgr.threshold }

/-! ### The peak check -/

def newCur (entry : ClkClientTblEntry Clk) (reqLevel adjLevel : VddLevel)
    (clkVal numHwBlocks : BitVec 32) : BitVec 32 :=
  if clkVal = 0 then 0 else entry.currentMa reqLevel adjLevel * numHwBlocks

/-- `peak_cur` and `delta_cur`, as they are compared with the threshold. -/
def peakCur (uid : Nat) (entry : ClkClientTblEntry Clk) (reqLevel adjLevel : VddLevel)
    (clkVal numHwBlocks : BitVec 32) : BitVec 32 × BitVec 32 :=
  let newCur := newCur entry reqLevel adjLevel clkVal numHwBlocks
  if adjLevel ≠ mgr.aggregLevel then (mgr.calculateTotalCurrent adjLevel uid + newCur, 0)
  else
    let oldCur := if entry.clkRate = 0 then 0 else entry.current mgr.aggregLevel
    (mgr.aggregVal, newCur - oldCur)

def updatePeak (aggregVal : BitVec 32) (aggregLevel : VddLevel) : SwClkMgr Clk :=
  reinstateThrottledClient { mgr with aggregVal := aggregVal, aggregLevel := aggregLevel }

/-- `mmrm_sw_check_peak_current`. -/
def checkPeakCurrent (uid : Nat) (entry : ClkClientTblEntry Clk) (reqLevel : VddLevel)
    (clkVal numHwBlocks : BitVec 32) (calls : SetvalCalls) : Except Errno (SwClkMgr Clk) :=
  let adjLevel := mgr.checkReqLevel entry.clkSrcId reqLevel
  let (peakCur, deltaCur) := mgr.peakCur uid entry reqLevel adjLevel clkVal numHwBlocks
  if (peakCur + deltaCur).toInt ≤ 0 then
    .ok { mgr with aggregVal := 0, aggregLevel := adjLevel }
  else if mgr.threshold ≤ peakCur + deltaCur then
    if entry.pri = some .high ∧ calls.enableThrottleFeature then
      match mgr.throttleLowPriorityClient calls deltaCur with
      | .nobody true => .error .enotify
      | .noMemory => .error .enomem
      | .nobody false => .ok (mgr.updatePeak (peakCur + deltaCur) adjLevel)
      | .taken tableId throttled saving =>
        .ok ((mgr.throttle tableId throttled saving).updatePeak (peakCur + (deltaCur - saving))
          adjLevel)
    else .error .einval
  else .ok (mgr.updatePeak (peakCur + deltaCur) adjLevel)

/-! ### Requests -/

/-- What `mmrm_sw_clk_client_setval` has to do before it takes the lock. -/
inductive Plan
  | refuse
  | reserve
  | check (reqLevel : VddLevel) (clkRate : BitVec 64) (maxRateIdx : Nat)

def requestedRate (entry : ClkClientTblEntry Clk) (clientData : ClientData) (clkVal : BitVec 64) :
    BitVec 64 × Nat :=
  if entry.isCrmClient then entry.getMaxCrmRate clientData clkVal else (clkVal, 0)

def planLevel (entry : ClkClientTblEntry Clk) (clk : Clk) (clientData : ClientData)
    (clkVal clkRate : BitVec 64) (maxRateIdx : Nat) : Plan :=
  if clkVal = 0 then .check 0 clkRate maxRateIdx
  else
    match ClkClientTblEntry.getReqLevel framework clk clkRate with
    | none => .refuse
    | some reqLevel =>
      if 1 ≤ clientData.numHwBlocks ∧ clientData.numHwBlocks ≤ entry.maxNumHwBlocks then
        .check reqLevel clkRate maxRateIdx
      else .refuse

/-- The part of `mmrm_sw_clk_client_setval` before the lock. -/
def plan (entry : ClkClientTblEntry Clk) (clientData : ClientData) (clkVal : BitVec 64) : Plan :=
  match entry.clk with
  | none => .refuse
  | some clk =>
    if entry.isCrmClient ∧ (entry.hwDrvInstances ≤ clientData.crmDrvIdx ∨
        entry.numPwrStates ≤ clientData.pwrSt) then .refuse
    else if entry.clkRate = clkVal ∧ entry.numHwBlocks = clientData.numHwBlocks ∧
        entry.isCrmClient = false then .reserve
    else
      planLevel framework entry clk clientData clkVal (requestedRate entry clientData clkVal).1
        (requestedRate entry clientData clkVal).2

def granted (clientData : ClientData) (clkVal : BitVec 64) (reqLevel : VddLevel)
    (clkRate : BitVec 64) (maxRateIdx : Nat) (entry : ClkClientTblEntry Clk) :
    ClkClientTblEntry Clk :=
  let entry := { entry with
    clkRate := clkRate
    vddLevel := reqLevel
    reserve := clientData.reserveOnly
    numHwBlocks := clientData.numHwBlocks }
  if entry.isCrmClient then
    { entry with
      maxRateIdx := maxRateIdx
      crmClientTbl := entry.crmClientTbl.set (entry.newValIdx clientData) clkVal }
  else entry

/-- `mmrm_sw_clk_client_setval`. -/
def setval (uid : Nat) (clientData : ClientData) (clkVal : BitVec 64) (calls : SetvalCalls) :
    SwClkMgr Clk × Except Errno Unit :=
  match mgr.clkClientTbl[uid]? with
  | none => (mgr, .error .einval)
  | some entry =>
    let rateSet : Except Errno Unit := if calls.rateSet then .ok () else .error .einval
    match plan framework entry clientData clkVal with
    | .refuse => (mgr, .error .einval)
    | .reserve =>
      ({ mgr with
          clkClientTbl := mgr.clkClientTbl.set uid
            { entry with reserve := clientData.reserveOnly } },
        if clientData.reserveOnly ∨ entry.reserve = clientData.reserveOnly then .ok ()
        else rateSet)
    | .check reqLevel clkRate maxRateIdx =>
      match mgr.checkPeakCurrent uid entry reqLevel (clkRate.setWidth 32)
          clientData.numHwBlocks calls with
      | .error errno => (mgr, .error errno)
      | .ok mgr =>
        ({ mgr with
            clkClientTbl := mgr.clkClientTbl.modify uid
              (granted clientData clkVal reqLevel clkRate maxRateIdx) },
          if clientData.reserveOnly ∧ entry.isCrmClient = false then .ok () else rateSet)

/-- `mmrm_sw_clk_client_register`. -/
def register (desc : ClkClientDesc Clk) : SwClkMgr Clk × Except Errno Nat :=
  match mgr.clkClientTbl.findIdx? fun entry => entry.clkSrcId = desc.clkSrcId with
  | none => (mgr, .error .einval)
  | some uid =>
    match mgr.clkClientTbl[uid]? with
    | none => (mgr, .error .einval)
    | some entry =>
      if entry.client then
        if desc.allowMultipleRegister then
          ({ mgr with
              clkClientTbl := mgr.clkClientTbl.set uid
                { entry with refCount := entry.refCount + 1 } }, .ok uid)
        else (mgr, .error .einval)
      else
        ({ mgr with clkClientTbl := mgr.clkClientTbl.set uid (entry.registerFree desc).1 },
          (entry.registerFree desc).2.map fun _ => uid)

/-- `mmrm_sw_clk_client_deregister`. -/
def deregister (uid : Nat) : SwClkMgr Clk × Except Errno Unit :=
  if mgr.clkClientTbl.length ≤ uid then (mgr, .error .einval)
  else
    ({ mgr with clkClientTbl := mgr.clkClientTbl.modify uid ClkClientTblEntry.deregister }, .ok ())

end SwClkMgr

end VendorModules.MmrmClk
