import Mathlib.Logic.Function.Basic

namespace VendorModules.Qos

def maxMqNum : Nat := 16

def defaultMqNum : Nat := 0

def ackMqOffset : Nat := maxMqNum - 1

def invalidMq : Nat := 0xFF

def defaultGrant : BitVec 32 := 1

def defaultCallGrant : BitVec 32 := 20480

/-- What stays the same for a device: `dfc_mode == DFC_MODE_SA`, `dfc_qmap` and
`num_tx_queues`. -/
structure Device where
  sa : Bool
  qmap : Bool
  numTxQueues : Nat

/-- `struct rmnet_bearer_map`. Of its watchdog timer also whether it is pending, and whether its
function has been called and waits for the lock. -/
structure Bearer where
  bearerId : BitVec 8
  flowRef : Int := 1
  grantSize : BitVec 32 := defaultCallGrant
  bytesInFlight : BitVec 32 := 0
  tcpBidir : Bool := false
  ratSwitch : Bool := false
  txOff : Bool := false
  mqIdx : Nat := invalidMq
  ackMqIdx : Nat := invalidMq
  watchdogStarted : Bool := false
  watchdogQuit : Bool := false
  timerPending : Bool := false
  timerCalled : Bool := false
  /-- `ch_switch.current_ch == RMNET_CH_LL` -/
  lowLatency : Bool := false
  autoSwitched : Bool := false
  deriving DecidableEq, Repr

/-- `struct rmnet_flow_map`; a bearer is named by where it was allocated. -/
structure FlowMap where
  bearerId : BitVec 8
  flowId : BitVec 32
  ipType : BitVec 32
  mqIdx : Nat
  bearer : Option Nat := none
  deriving DecidableEq, Repr

structure MqMap where
  bearer : Option Nat := none
  isLlCh : Bool := false
  dropOnRemove : Bool := false
  deriving DecidableEq, Repr

/-- `struct qos_info`, with the bearers that are allocated and not freed, and with the state of
the transmit queues of the device. -/
structure QosInfo where
  bearers : Nat → Option Bearer
  fresh : Nat
  flowHead : List FlowMap
  bearerHead : List Nat
  mq : Nat → MqMap
  removedBearer : Option Nat
  running : Nat → Bool

namespace QosInfo

/-- `qmi_rmnet_qos_init` -/
def init : QosInfo where
  bearers := fun _ => none
  fresh := 0
  flowHead := []
  bearerHead := []
  mq := fun _ => {}
  removedBearer := none
  running := fun _ => true

def modify (qos : QosInfo) (p : Nat) (change : Bearer → Bearer) : Option QosInfo := do
  let bearer ← qos.bearers p
  some { qos with bearers := Function.update qos.bearers p (some (change bearer)) }

/-- `qmi_rmnet_flow_control` -/
def flowControl (dev : Device) (qos : QosInfo) (mqIdx : Nat) (enable : Bool) : QosInfo :=
  if dev.numTxQueues ≤ mqIdx then qos
  else { qos with running := Function.update qos.running mqIdx enable }

/-- `dfc_bearer_flow_ctl` -/
def bearerFlowCtl (dev : Device) (qos : QosInfo) (p : Nat) : Option QosInfo := do
  let bearer ← qos.bearers p
  let enable := bearer.grantSize != 0
  let qos := if bearer.ackMqIdx = invalidMq then qos
    else qos.flowControl dev bearer.ackMqIdx (enable || bearer.tcpBidir)
  some (qos.flowControl dev bearer.mqIdx enable)

/-- `qmi_rmnet_get_flow_map`, as a place in the list. -/
def getFlowMap (qos : QosInfo) (flowId ipType : BitVec 32) : Option Nat :=
  qos.flowHead.findIdx? fun itm => itm.flowId == flowId && itm.ipType == ipType

/-- The loop of `qmi_rmnet_get_bearer_map`. -/
def searchBearers (bearers : Nat → Option Bearer) (bearerId : BitVec 8) :
    List Nat → Option (Option Nat)
  | [] => some none
  | p :: rest => do
      let bearer ← bearers p
      if bearer.bearerId = bearerId then some (some p) else searchBearers bearers bearerId rest

/-- `qmi_rmnet_get_bearer_map` -/
def getBearerMap (qos : QosInfo) (bearerId : BitVec 8) : Option (Option Nat) :=
  searchBearers qos.bearers bearerId qos.bearerHead

/-- `__qmi_rmnet_bearer_get` -/
def bearerGet (qos : QosInfo) (bearerId : BitVec 8) (allocated : Bool) :
    Option (QosInfo × Option Nat) := do
  match ← qos.getBearerMap bearerId with
  | some p => do
      let qos ← qos.modify p fun bearer => { bearer with flowRef := bearer.flowRef + 1 }
      some (qos, some p)
  | none =>
    if allocated then
      some ({ qos with
        bearers := Function.update qos.bearers qos.fresh (some { bearerId }),
        fresh := qos.fresh + 1,
        bearerHead := qos.fresh :: qos.bearerHead }, some qos.fresh)
    else some (qos, none)

/-- `qmi_rmnet_get_bearer_noref` -/
def getBearerNoref (qos : QosInfo) (bearerId : BitVec 8) (allocated : Bool) :
    Option (QosInfo × Option Nat) := do
  let (qos, got) ← qos.bearerGet bearerId allocated
  match got with
  | some p => do
      let qos ← qos.modify p fun bearer => { bearer with flowRef := bearer.flowRef - 1 }
      some (qos, some p)
  | none => some (qos, none)

/-- The round of the loop of `__qmi_rmnet_bearer_put` for one queue. -/
def releaseMq (dev : Device) (p : Nat) (reset : Bool) (qos : QosInfo) (i : Nat) : QosInfo :=
  if (qos.mq i).bearer ≠ some p then qos
  else
    let mq : MqMap := { bearer := none, isLlCh := false, dropOnRemove := reset }
    let qos := { qos with mq := Function.update qos.mq i mq }
    let qos := qos.flowControl dev i true
    if dev.sa then qos.flowControl dev (i + ackMqOffset) true else qos

/-- `__qmi_rmnet_bearer_put` -/
def bearerPut (dev : Device) (qos : QosInfo) (put : Option Nat) (reset : Bool) :
    Option QosInfo :=
  match put with
  | none => some qos
  | some p => do
      let qos ← qos.modify p fun bearer => { bearer with flowRef := bearer.flowRef - 1 }
      let bearer ← qos.bearers p
      if bearer.flowRef = 0 then
        let qos := (List.range maxMqNum).foldl (releaseMq dev p reset) qos
        some { qos with bearerHead := qos.bearerHead.erase p, removedBearer := some p }
      else some qos

/-- `__qmi_rmnet_update_mq` -/
def updateMq (dev : Device) (qos : QosInfo) (p : Nat) (itm : FlowMap) : Option QosInfo :=
  if dev.sa ∧ itm.mqIdx = defaultMqNum then some qos
  else if (qos.mq itm.mqIdx).bearer.isSome then some qos
  else do
    let bearer ← qos.bearers p
    let mq : MqMap := { bearer := some p, isLlCh := bearer.lowLatency, dropOnRemove := false }
    let qos := { qos with mq := Function.update qos.mq itm.mqIdx mq }
    let ackMqIdx := if dev.sa then itm.mqIdx + ackMqOffset else bearer.ackMqIdx
    let qos ← qos.modify p fun bearer => { bearer with
      mqIdx := itm.mqIdx
      ackMqIdx
      grantSize := if bearer.grantSize = 0 then defaultGrant else bearer.grantSize }
    let qos := qos.flowControl dev itm.mqIdx true
    some (if dev.sa then qos.flowControl dev ackMqIdx true else qos)

/-- `__qmi_rmnet_rebind_flow` -/
def rebindFlow (dev : Device) (qos : QosInfo) (k : Nat) (itm newMap : FlowMap)
    (allocated : Bool) : Option QosInfo := do
  let qos ← qos.bearerPut dev itm.bearer false
  let (qos, got) ← qos.bearerGet newMap.bearerId allocated
  match got with
  | none => some qos
  | some p =>
    let itm := { newMap with bearer := some p }
    let qos := { qos with flowHead := qos.flowHead.set k itm }
    qos.updateMq dev p itm

/-- How the section of `qmi_rmnet_add_flow` under the lock ends. -/
inductive Added
  | done
  | again
  | failed
  deriving DecidableEq, Repr

/-- The section of `qmi_rmnet_add_flow` under the lock, and whether the flow entry and the
bearer could be allocated. -/
def addFlow (dev : Device) (qos : QosInfo) (newMap : FlowMap) (itmAllocated allocated : Bool) :
    Option (QosInfo × Added) :=
  match qos.getFlowMap newMap.flowId newMap.ipType with
  | some k => do
      let itm ← qos.flowHead[k]?
      if itm.bearerId ≠ newMap.bearerId then
        let qos ← qos.rebindFlow dev k itm newMap allocated
        some (qos, .done)
      else if itm.mqIdx ≠ newMap.mqIdx then some (qos, .again)
      else some (qos, .done)
  | none =>
    if itmAllocated then do
      let (got, p) ← { qos with
        flowHead := { newMap with bearer := none } :: qos.flowHead }.bearerGet
          newMap.bearerId allocated
      match p with
      | none => some (got, .done)
      | some p =>
        let itm := { newMap with bearer := some p }
        let qos ← { got with flowHead := got.flowHead.set 0 itm }.updateMq dev p itm
        some (qos, .done)
    else some (qos, .failed)

/-- The section of `qmi_rmnet_del_flow` under the lock. -/
def delFlow (dev : Device) (qos : QosInfo) (flowId ipType : BitVec 32) : Option QosInfo := do
  let removed :=
    match qos.getFlowMap flowId ipType with
    | some k => do
        let itm ← qos.flowHead[k]?
        let qos ← qos.bearerPut dev itm.bearer true
        some { qos with flowHead := qos.flowHead.eraseIdx k }
    | none => some qos
  let qos ← removed
  -- `netif_tx_wake_all_queues`
  some (if qos.flowHead = [] then { qos with running := fun _ => true } else qos)

end QosInfo

end VendorModules.Qos
