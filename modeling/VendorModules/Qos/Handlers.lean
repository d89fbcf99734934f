import VendorModules.Lib.Transition
import VendorModules.Qos.Bearer

namespace VendorModules.Qos

/-- What the handlers use of `struct dfc_flow_status_info_type_v01`. -/
structure FlowStatus where
  bearerId : BitVec 8
  numBytes : BitVec 32
  rxBytesValid : Bool := false
  rxBytes : BitVec 32 := 0
  llStatus : Bool := false
  deriving DecidableEq, Repr

/-- The bits of the ancillary word: `DFC_IS_TCP_BIDIR` and `DFC_IS_RAT_SWITCH`. -/
structure Ancillary where
  tcpBidir : Bool := false
  ratSwitch : Bool := false
  deriving DecidableEq, Repr

/-- `qmi_rmnet_watchdog_add` -/
def Bearer.watchdogAdd (bearer : Bearer) : Bearer :=
  let bearer := { bearer with watchdogQuit := false }
  if bearer.watchdogStarted then bearer
  else { bearer with watchdogStarted := true, timerPending := true }

/-- `qmi_rmnet_watchdog_remove` -/
def Bearer.watchdogRemove (bearer : Bearer) : Bearer :=
  let bearer := { bearer with watchdogQuit := true }
  if !bearer.watchdogStarted then bearer
  else { bearer with timerPending := false, watchdogStarted := false }

/-- `dfc_adjust_grant` -/
def Bearer.adjustGrant (bearer : Bearer) (info : FlowStatus) : BitVec 32 × Bearer :=
  if !info.rxBytesValid then (info.numBytes, bearer)
  else
    let inFlight := if bearer.bytesInFlight > info.rxBytes then
      bearer.bytesInFlight - info.rxBytes else 0
    (if info.numBytes > inFlight then info.numBytes - inFlight else 0,
      { bearer with bytesInFlight := inFlight })

/-! The parts of `dfc_update_fc_map` that are about the bearer alone. -/

def Bearer.noteRatSwitch (bearer : Bearer) (info : FlowStatus) (ancillary : Ancillary) : Bearer :=
  if ancillary.ratSwitch then { bearer with ratSwitch := info.numBytes == 0 } else bearer

def Bearer.switchesLowLatency (bearer : Bearer) (info : FlowStatus) : Bool :=
  info.llStatus && !bearer.lowLatency

def Bearer.switchLowLatency (bearer : Bearer) (info : FlowStatus) : Bearer :=
  if bearer.switchesLowLatency info then { bearer with lowLatency := true, autoSwitched := true }
  else bearer

/-- `adjusted_grant` -/
def Bearer.offered (bearer : Bearer) (dev : Device) (info : FlowStatus) (isQuery : Bool) :
    BitVec 32 × Bearer :=
  if dev.qmap && isQuery then bearer.adjustGrant info
  else (info.numBytes, { bearer with bytesInFlight := 0 })

def Bearer.needsAction (bearer : Bearer) (ancillary : Ancillary) (adjusted : BitVec 32) : Bool :=
  (bearer.grantSize == 0 && 0 < adjusted) || (0 < bearer.grantSize && adjusted == 0) ||
    bearer.tcpBidir != ancillary.tcpBidir

def Bearer.granted (bearer : Bearer) (dev : Device) (info : FlowStatus) (ancillary : Ancillary)
    (isQuery : Bool) (adjusted : BitVec 32) : Bearer :=
  let bearer := { bearer with grantSize := adjusted }
  let bearer := if dev.qmap && isQuery && adjusted < info.numBytes / 5 then bearer.watchdogAdd
    else bearer.watchdogRemove
  { bearer with tcpBidir := ancillary.tcpBidir }

def Bearer.spend (bearer : Bearer) (len : BitVec 32) : BitVec 32 :=
  if bearer.grantSize ≤ len then 0 else bearer.grantSize - len

namespace QosInfo

/-- `dfc_update_fc_map`: the queue map of a bearer that goes over to the low latency channel. -/
def markLowLatency (qos : QosInfo) (info : FlowStatus) (itm : Bearer) : QosInfo :=
  if itm.switchesLowLatency info && itm.mqIdx < maxMqNum then
    let mq := { qos.mq itm.mqIdx with isLlCh := true }
    { qos with mq := Function.update qos.mq itm.mqIdx mq }
  else qos

/-- The loop of `dfc_all_bearer_flow_ctl`. -/
def allBearerFlowCtl (dev : Device) (info : FlowStatus) (ancillary : Ancillary) :
    List Nat → QosInfo → Option QosInfo
  | [], qos => some qos
  | p :: rest, qos => do
      let qos ← qos.modify p fun bearer =>
        { bearer with grantSize := info.numBytes, tcpBidir := ancillary.tcpBidir }
      let qos ← qos.bearerFlowCtl dev p
      allBearerFlowCtl dev info ancillary rest qos

/-- The part of `dfc_update_fc_map` for a bearer that was found or cached. -/
def updateGrant (dev : Device) (qos : QosInfo) (p : Nat) (info : FlowStatus)
    (ancillary : Ancillary) (isQuery : Bool) : Option QosInfo := do
  let itm ← qos.bearers p
  if !ancillary.ratSwitch && itm.ratSwitch then some qos
  else
    let itm := itm.noteRatSwitch info ancillary
    if itm.txOff && 0 < info.numBytes then qos.modify p fun _ => itm
    else do
      let qos := qos.markLowLatency info itm
      let itm := itm.switchLowLatency info
      let adjusted := (itm.offered dev info isQuery).1
      let itm := (itm.offered dev info isQuery).2
      let qos ← qos.modify p fun _ => itm.granted dev info ancillary isQuery adjusted
      if itm.needsAction ancillary adjusted then qos.bearerFlowCtl dev p else some qos

/-- `dfc_update_fc_map` -/
def updateFcMap (dev : Device) (qos : QosInfo) (info : FlowStatus) (ancillary : Ancillary)
    (isQuery allocated : Bool) : Option QosInfo := do
  match ← qos.getBearerMap info.bearerId with
  | some p => qos.updateGrant dev p info ancillary isQuery
  | none =>
    if !isQuery && info.numBytes != 0 then
      match ← qos.getBearerNoref info.bearerId allocated with
      | (qos, some p) => qos.updateGrant dev p info ancillary isQuery
      | (qos, none) => some qos
    else some qos

/-- The round of `dfc_do_burst_flow_control` for one flow status of the device, where the
ancillary word has been looked up. -/
def burstFlowControl (dev : Device) (qos : QosInfo) (info : FlowStatus) (ancillary : Ancillary)
    (isQuery ignoreGrant allocated : Bool) : Option QosInfo :=
  if ignoreGrant && info.numBytes == 0 then some qos
  else
    let info := if ignoreGrant then
      { info with numBytes := defaultGrant, rxBytesValid := true, rxBytes := 0xFFFFFFFF } else info
    if info.bearerId = 0xFF then allBearerFlowCtl dev info ancillary qos.bearerHead qos
    else qos.updateFcMap dev info ancillary isQuery allocated

/-- `dfc_update_tx_link_status` -/
def updateTxLinkStatus (dev : Device) (qos : QosInfo) (txStatus : Bool) (bearerId : BitVec 8) :
    Option QosInfo := do
  match ← qos.getBearerMap bearerId with
  | none => some qos
  | some p => do
      let itm ← qos.bearers p
      if itm.txOff = !txStatus then some qos
      else do
        let switched :=
          if itm.grantSize ≠ 0 ∧ !txStatus then do
            let qos ← qos.modify p fun itm => Bearer.watchdogRemove
              { itm with grantSize := 0, tcpBidir := false, bytesInFlight := 0 }
            qos.bearerFlowCtl dev p
          else if itm.grantSize = 0 ∧ txStatus ∧ !itm.ratSwitch then do
            let qos ← qos.modify p fun itm => { itm with grantSize := defaultGrant }
            qos.bearerFlowCtl dev p
          else some qos
        let qos ← switched
        qos.modify p fun itm => { itm with txOff := !txStatus }

/-- `dfc_qmi_burst_check` -/
def burstCheck (dev : Device) (qos : QosInfo) (ipType mark len : BitVec 32) : Option QosInfo :=
  match (qos.getFlowMap mark ipType).bind (qos.flowHead[·]?) |>.bind FlowMap.bearer with
  | none => some qos
  | some p => do
      let bearer ← qos.bearers p
      let qos ← qos.modify p fun bearer =>
        { bearer with bytesInFlight := bearer.bytesInFlight + len }
      if bearer.grantSize = 0 then some qos
      else do
        let qos ← qos.modify p fun bearer => { bearer with grantSize := bearer.spend len }
        if bearer.spend len = 0 then qos.bearerFlowCtl dev p else some qos

/-- The body of `qmi_rmnet_watchdog_fn` under the lock. -/
def watchdogFn (dev : Device) (qos : QosInfo) (p : Nat) : Option QosInfo := do
  let bearer ← qos.bearers p
  let recovered :=
    if bearer.watchdogQuit then some qos
    else do
      let qos ← qos.modify p fun bearer => { bearer with bytesInFlight := 0 }
      if bearer.grantSize = 0 then do
        let qos ← qos.modify p fun bearer => { bearer with grantSize := defaultCallGrant }
        qos.bearerFlowCtl dev p
      else some qos
  let qos ← recovered
  qos.modify p fun bearer => { bearer with watchdogStarted := false, timerCalled := false }

def resetBearer (bearer : Bearer) : Bearer :=
  { bearer with bytesInFlight := 0, tcpBidir := false, ratSwitch := false }.watchdogRemove

/-- The loop of `qmi_rmnet_enable_all_flows`. -/
def enableAllFlows (dev : Device) : List Nat → QosInfo → Option QosInfo
  | [], qos => some qos
  | p :: rest, qos => do
      let qos ← qos.modify p resetBearer
      let bearer ← qos.bearers p
      if bearer.txOff then enableAllFlows dev rest qos
      else do
        let doWake := bearer.grantSize == 0
        let qos ← qos.modify p fun bearer => { bearer with grantSize := defaultGrant }
        let woken := if doWake then qos.bearerFlowCtl dev p else some qos
        let qos ← woken
        enableAllFlows dev rest qos

/-- The loop of `qmi_rmnet_prepare_ps_bearers`, but for the list of the disabled bearers. -/
def preparePsBearers : List Nat → QosInfo → Option QosInfo
  | [], qos => some qos
  | p :: rest, qos => do
      let bearer ← qos.bearers p
      let prepared :=
        if bearer.grantSize ≠ 0 then
          qos.modify p fun bearer => { resetBearer bearer with grantSize := defaultGrant }
        else some qos
      let qos ← prepared
      preparePsBearers rest qos

end QosInfo

/-! ### Runs -/

/-- Where the thread that holds the RTNL lock is: the sections under the qos lock follow each
other with the lock free in between. -/
inductive Rtnl
  | idle
  | adding (newMap : FlowMap)
  | deleting (flowId ipType : BitVec 32) (after : Option FlowMap)
  | cleaning (after : Option FlowMap)
  | freeing (after : Option FlowMap)
  deriving DecidableEq, Repr

def Rtnl.resume : Option FlowMap → Rtnl
  | none => .idle
  | some newMap => .adding newMap

structure World where
  qos : QosInfo
  rtnl : Rtnl

inductive Move
  | activate (newMap : FlowMap)
  | deactivate (flowId ipType : BitVec 32)
  | addLocked (itmAllocated allocated : Bool)
  | delLocked
  | cleanQuit
  | cleanFree
  | flowStatus (info : FlowStatus) (ancillary : Ancillary) (isQuery ignoreGrant allocated : Bool)
  | txLinkStatus (txStatus : Bool) (bearerId : BitVec 8)
  | send (ipType mark len : BitVec 32)
  | watchdogCalled (p : Nat)
  | watchdogFn (p : Nat)
  | enableAllFlows
  | preparePsBearers
  deriving DecidableEq, Repr

def World.withQos (world : World) (qos : Option QosInfo) : Option World :=
  qos.map fun qos => { world with qos }

def step (dev : Device) (world : World) : Move → Option World
  | .activate newMap =>
    match world.rtnl with
    | .idle => if maxMqNum ≤ newMap.mqIdx then some world
        else some { world with rtnl := .adding newMap }
    | _ => none
  | .deactivate flowId ipType =>
    match world.rtnl with
    | .idle => some { world with rtnl := .deleting flowId ipType none }
    | _ => none
  | .addLocked itmAllocated allocated =>
    match world.rtnl with
    | .adding newMap => do
        let (qos, added) ← world.qos.addFlow dev newMap itmAllocated allocated
        match added with
        | .done => some { qos, rtnl := .cleaning none }
        | .again => some { qos, rtnl := .deleting newMap.flowId newMap.ipType (some newMap) }
        | .failed => some { qos, rtnl := .idle }
    | _ => none
  | .delLocked =>
    match world.rtnl with
    | .deleting flowId ipType after => do
        let qos ← world.qos.delFlow dev flowId ipType
        some { qos, rtnl := .cleaning after }
    | _ => none
  | .cleanQuit =>
    match world.rtnl with
    | .cleaning after =>
      match world.qos.removedBearer with
      | none => some { world with rtnl := .resume after }
      | some p => do
          let qos ← world.qos.modify p fun bearer => { bearer with watchdogQuit := true }
          some { qos, rtnl := .freeing after }
    | _ => none
  | .cleanFree =>
    match world.rtnl with
    | .freeing after => do
        let p ← world.qos.removedBearer
        let bearer ← world.qos.bearers p
        -- `del_timer_sync` waits for a timer function that has been called
        if bearer.timerCalled then none
        else
          let bearers := Function.update world.qos.bearers p none
          some { qos := { world.qos with bearers, removedBearer := none }, rtnl := .resume after }
    | _ => none
  | .flowStatus info ancillary isQuery ignoreGrant allocated =>
    world.withQos (world.qos.burstFlowControl dev info ancillary isQuery ignoreGrant allocated)
  | .txLinkStatus txStatus bearerId =>
    world.withQos (world.qos.updateTxLinkStatus dev txStatus bearerId)
  | .send ipType mark len => world.withQos (world.qos.burstCheck dev ipType mark len)
  | .watchdogCalled p => do
      let bearer ← world.qos.bearers p
      if bearer.timerPending then
        world.withQos (world.qos.modify p fun bearer =>
          { bearer with timerPending := false, timerCalled := true })
      else none
  | .watchdogFn p => do
      let bearer ← world.qos.bearers p
      if bearer.timerCalled then world.withQos (world.qos.watchdogFn dev p) else none
  | .enableAllFlows => world.withQos (QosInfo.enableAllFlows dev world.qos.bearerHead world.qos)
  | .preparePsBearers => world.withQos (QosInfo.preparePsBearers world.qos.bearerHead world.qos)

def Initial (world : World) : Prop := world = { qos := QosInfo.init, rtnl := .idle }

end VendorModules.Qos
