import VendorModules.ChgCpa.Protocol

namespace VendorModules.ChgCpa

/-! The arbiter of the charge protocols. Each piece of a work item or of a call that runs without
taking a lock, giving one back or notifying the clients is one function on the state. -/

inductive Errno
  | efault | ebusy
  deriving DecidableEq, Repr

structure Config where
  defaultProtocolType : Finset Protocol
  protocolSupportedType : Finset Protocol
  retentionTopic : Bool

/-- `DEF_VOTER`, or a client by its name. -/
inductive Voter
  | default
  | client (name : String)
  deriving DecidableEq

/-! ### Work items -/

/-- A work item: whether it is queued, and where it is if it runs. It is queued at most once and
does not run beside itself. -/
structure Work (α : Type) where
  pending : Bool
  running : Option α

namespace Work

variable {α : Type} (work : Work α)

def idle : Work α := ⟨false, none⟩

def schedule : Work α := { work with pending := true }

def Ready : Prop := work.pending = true ∧ work.running = none

instance [DecidableEq α] : Decidable work.Ready := inferInstanceAs (Decidable (_ ∧ _))

/-- The runs that `flush_work` waits for. -/
def runs : Nat := work.pending.toNat + work.running.isSome.toNat

end Work

/-- Where `oplus_cpa_protocol_switch_work` is: the clients are told of the new protocol, before
`start_lock`, before `cpa_request_lock`, or before it after a grant that failed. -/
inductive SwitchPc
  | publishing (type : Protocol)
  | granted (type : Protocol)
  | clearing (type : Protocol)
  | retrying
  deriving DecidableEq

/-- `oplus_cpa_switch_end_work` before `cpa_request_lock`. -/
inductive EndPc
  | requesting
  deriving DecidableEq

/-- `oplus_cpa_wired_offline_work` after the clients have been told. -/
inductive OfflinePc
  | resetting
  deriving DecidableEq

/-- `oplus_cpa_wired_online_work` in `flush_work`, with the runs it waits for. -/
inductive OnlinePc
  | flushing (runs : Nat)
  deriving DecidableEq

/-- `oplus_cpa_chg_type_change_work` before `cpa_request_lock`, and after it. -/
inductive ChgTypePc
  | retryPps (wiredType : UsbType)
  | requestDefault (wiredType : UsbType)
  | closing (wiredType : UsbType)
  deriving DecidableEq

/-- `oplus_cpa_request_lock_vote_callback` before `cpa_request_lock`. -/
inductive VotePc
  | requestPending
  | requestDefault
  deriving DecidableEq

/-- `struct oplus_cpa`. -/
structure Cpa where
  currentProtocolType : Option Protocol
  protocolToBeSwitched : Finset Protocol
  protocolDisableMask : Finset Protocol
  readyProtocolType : Finset Protocol
  protocolPrioTable : List ProtocolInfo
  defReq : Bool
  requestPending : Bool
  started : Bool
  requestLocked : Bool
  statusReset : Bool
  wiredOnline : Bool
  wiredPresent : Bool
  ccNotPlug : Bool
  wiredRealChgType : UsbType
  retentionState : Bool
  preRetentionState : Bool
  retentionStateReady : Bool
  /-- The voters of `req_lock_votable` that vote for the lock, and its callback. -/
  reqLockVotes : Finset Voter
  voteCallback : Option VotePc
  /-- Callers past the test of `oplus_cpa_switch_start`, and callers about to take the vote of
  `DEF_VOTER` back. -/
  startCalls : Nat
  readyCalls : Nat
  protocolSwitchWork : Work SwitchPc
  switchEndWork : Work EndPc
  wiredOfflineWork : Work OfflinePc
  wiredOnlineWork : Work OnlinePc
  chgTypeChangeWork : Work ChgTypePc
  protocolSwitchTimeoutWork : Bool
  protocolReadyTimeoutWork : Bool

namespace Cpa

/-- `oplus_cpa_probe`. -/
def probe (table : List ProtocolInfo) : Cpa where
  currentProtocolType := none
  protocolToBeSwitched := ∅
  protocolDisableMask := ∅
  readyProtocolType := ∅
  protocolPrioTable := table
  defReq := false
  requestPending := false
  started := false
  requestLocked := true
  statusReset := true
  wiredOnline := false
  wiredPresent := false
  ccNotPlug := false
  wiredRealChgType := .unknown
  retentionState := false
  preRetentionState := false
  retentionStateReady := false
  reqLockVotes := {.default}
  voteCallback := none
  startCalls := 0
  readyCalls := 0
  protocolSwitchWork := .idle
  switchEndWork := .idle
  wiredOfflineWork := .idle
  wiredOnlineWork := .idle
  chgTypeChangeWork := .idle
  protocolSwitchTimeoutWork := false
  protocolReadyTimeoutWork := true

variable (cfg : Config) (cpa : Cpa)

/-! ### Requests -/

/-- `oplus_cpa_is_allow_switch`. -/
def isAllowSwitch (currentType : Option Protocol) (bitTargetType : Finset Protocol) : Prop :=
  currentType = some .pd ∧ bitTargetType = {.pps}

def Occupied (bitTargetType : Finset Protocol) : Prop :=
  cpa.currentProtocolType ≠ none ∧ cpa.currentProtocolType ≠ some .bc12 ∧
    ¬ isAllowSwitch cpa.currentProtocolType bitTargetType

instance (currentType : Option Protocol) (bitTargetType : Finset Protocol) :
    Decidable (isAllowSwitch currentType bitTargetType) := inferInstanceAs (Decidable (_ ∧ _))

instance (bitTargetType : Finset Protocol) : Decidable (cpa.Occupied bitTargetType) :=
  inferInstanceAs (Decidable (_ ∧ _ ∧ _))

def Unplugged (present : Bool) : Prop :=
  cpa.retentionState = false ∧ (cpa.wiredOnline = false ∨ present = false)

instance (present : Bool) : Decidable (cpa.Unplugged present) := inferInstanceAs (Decidable (_ ∧ _))

/-- `protocol_identify_request`, under `cpa_request_lock`. -/
def protocolIdentifyRequest (protocol : Finset Protocol) (present : Bool) :
    Cpa × Except Errno Unit :=
  if cpa.Unplugged present then (cpa, .error .efault)
  else
    let cpa := { cpa with protocolToBeSwitched := cpa.protocolToBeSwitched ∪ protocol }
    if cpa.Occupied protocol then (cpa, .error .ebusy)
    else if cpa.defReq = false then (cpa, .ok ())
    else if cpa.requestLocked = true then (cpa, .ok ())
    else ({ cpa with protocolSwitchWork := cpa.protocolSwitchWork.schedule }, .ok ())

/-- The protocol that `oplus_cpa_request` asks for. -/
def requestedType (type : Protocol) : Protocol :=
  if type = .pps ∧ type ∉ cfg.protocolSupportedType then .pd else type

/-- `oplus_cpa_request`. -/
def request (type : Protocol) (present : Bool) : Cpa :=
  (cpa.protocolIdentifyRequest {requestedType cfg type} present).1

def requestDefault (present : Bool) : Cpa :=
  let asked := { cpa with defReq := true }.protocolIdentifyRequest cfg.defaultProtocolType present
  match asked.2 with
  | .error .efault => { asked.1 with defReq := false }
  | .error .ebusy => asked.1
  | .ok () => asked.1

/-! ### The lock on requests -/

/-- `oplus_cpa_request_lock_vote_callback` up to `cpa_request_lock`. -/
def requestLockVoteCallback : Cpa :=
  let locked := decide (cpa.reqLockVotes ≠ ∅)
  if cpa.requestLocked = locked then cpa
  else
    let cpa := { cpa with requestLocked := locked }
    if locked then cpa
    else if cpa.requestPending = false then { cpa with voteCallback := some .requestPending }
    else
      let cpa := { cpa with requestPending := false }
      if cpa.defReq then cpa else { cpa with voteCallback := some .requestDefault }

/-- `vote` on `req_lock_votable`. -/
def voteReqLock (voter : Voter) (enabled : Bool) : Option Cpa :=
  if cpa.voteCallback = none then
    some (requestLockVoteCallback
      { cpa with
        reqLockVotes :=
          if enabled then insert voter cpa.reqLockVotes else cpa.reqLockVotes.erase voter })
  else none

def requestUnlocked (present : Bool) : Option Cpa :=
  cpa.voteCallback.map fun pc =>
    let cpa := { cpa with voteCallback := none }
    match pc with
    | .requestPending => (cpa.protocolIdentifyRequest cpa.protocolToBeSwitched present).1
    | .requestDefault => cpa.requestDefault cfg present

/-- `oplus_cpa_protocol_ready` up to its vote. -/
def protocolReady (type : Protocol) : Cpa :=
  let cpa := { cpa with readyProtocolType := insert type cpa.readyProtocolType }
  if cfg.defaultProtocolType ⊆ cpa.readyProtocolType then
    { cpa with protocolReadyTimeoutWork := false, readyCalls := cpa.readyCalls + 1 }
  else cpa

/-- `oplus_cpa_protocol_ready_timeout_work` up to its vote. -/
def protocolReadyTimeout : Option Cpa :=
  if cpa.protocolReadyTimeoutWork then
    some { cpa with protocolReadyTimeoutWork := false, readyCalls := cpa.readyCalls + 1 }
  else none

def readyVote : Option Cpa :=
  if 0 < cpa.readyCalls then
    { cpa with readyCalls := cpa.readyCalls - 1 }.voteReqLock .default false
  else none

/-! ### Switching -/

/-- What `oplus_cpa_protocol_switch_work` chooses, where it comes to a choice. -/
def switchChoice (adapter : Adapter) : Option Protocol :=
  if cpa.defReq = false ∨ cpa.Unplugged adapter.present then none
  else
    let requested := cpa.protocolToBeSwitched \ cpa.protocolDisableMask
    (getHighestPriorityProtocolType cpa.protocolPrioTable requested).filter fun type =>
      match chgTypeToProtocolType (getFinalChgType cpa.protocolPrioTable cfg.protocolSupportedType
          cpa.currentProtocolType adapter) with
      | none => true
      | some currentType =>
        getHighestPriorityProtocolType cpa.protocolPrioTable (insert currentType requested) =
          some type

/-- `__protocol_identify_request`, up to the notification of the clients. -/
def identifyRequest (type : Protocol) : Option Cpa :=
  if cpa.Occupied {type} then none
  else if cpa.currentProtocolType = some type then
    some { cpa with
      started := false
      protocolSwitchWork := { cpa.protocolSwitchWork with running := some (.granted type) } }
  else
    some { cpa with
      started := false
      currentProtocolType := some type
      protocolSwitchWork := { cpa.protocolSwitchWork with running := some (.publishing type) } }

/-- `oplus_cpa_protocol_switch_work` up to the notification. -/
def protocolSwitch (adapter : Adapter) : Option Cpa :=
  if cpa.protocolSwitchWork.Ready then
    let cpa := { cpa with protocolSwitchWork := { cpa.protocolSwitchWork with pending := false } }
    match cpa.switchChoice cfg adapter with
    | none => some cpa
    | some type =>
      let cpa := { cpa with protocolSwitchTimeoutWork := false }
      some ((cpa.identifyRequest type).getD cpa)
  else none

def switchPublished (ok : Bool) : Option Cpa :=
  match cpa.protocolSwitchWork.running with
  | some (.publishing type) =>
    if ok then
      some { cpa with
        protocolSwitchWork := { cpa.protocolSwitchWork with running := some (.granted type) } }
    else
      some { cpa with
        currentProtocolType := none
        protocolSwitchWork := { cpa.protocolSwitchWork with running := some .retrying } }
  | _ => none

/-- Under `start_lock`. -/
def switchArm : Option Cpa :=
  match cpa.protocolSwitchWork.running with
  | some (.granted type) =>
    some { cpa with
      protocolSwitchTimeoutWork := cpa.protocolSwitchTimeoutWork || !cpa.started
      protocolSwitchWork := { cpa.protocolSwitchWork with running := some (.clearing type) } }
  | _ => none

/-- Under `cpa_request_lock`. -/
def switchClear : Option Cpa :=
  match cpa.protocolSwitchWork.running with
  | some (.clearing type) =>
    some { cpa with
      protocolToBeSwitched := cpa.protocolToBeSwitched.erase type
      protocolSwitchWork := { cpa.protocolSwitchWork with running := none } }
  | _ => none

/-- Under `cpa_request_lock`, after a grant that failed. -/
def switchRetry (present : Bool) : Option Cpa :=
  match cpa.protocolSwitchWork.running with
  | some .retrying =>
    let cpa := { cpa with protocolSwitchWork := { cpa.protocolSwitchWork with running := none } }
    some (cpa.protocolIdentifyRequest cpa.protocolToBeSwitched present).1
  | _ => none

/-- `oplus_cpa_protocol_switch_timeout_work`. What the clients do about it are calls of theirs. -/
def protocolSwitchTimeout : Option Cpa :=
  if cpa.protocolSwitchTimeoutWork then some { cpa with protocolSwitchTimeoutWork := false }
  else none

/-- `oplus_cpa_switch_start` up to `start_lock`. -/
def switchStart (type : Protocol) : Cpa :=
  if cpa.currentProtocolType = some type then { cpa with startCalls := cpa.startCalls + 1 }
  else cpa

/-- Under `start_lock`. -/
def switchStarted : Option Cpa :=
  if 0 < cpa.startCalls then
    some { cpa with
      startCalls := cpa.startCalls - 1
      protocolSwitchTimeoutWork := false
      started := true }
  else none

/-- `oplus_cpa_switch_end`. -/
def switchEnd (type : Protocol) : Cpa :=
  if cpa.currentProtocolType = some type then
    { cpa with switchEndWork := cpa.switchEndWork.schedule }
  else cpa

/-- `oplus_cpa_switch_end_work` up to `cpa_request_lock`. -/
def switchEnding : Option Cpa :=
  if cpa.switchEndWork.Ready then
    some { cpa with
      started := false
      currentProtocolType := none
      switchEndWork := ⟨false, some .requesting⟩ }
  else none

/-- Under `cpa_request_lock`. -/
def switchEnded (present : Bool) : Option Cpa :=
  match cpa.switchEndWork.running with
  | some .requesting =>
    let cpa := { cpa with switchEndWork := { cpa.switchEndWork with running := none } }
    some (cpa.protocolIdentifyRequest cpa.protocolToBeSwitched present).1
  | none => none

/-! ### The protocols of the adapter -/

/-- `oplus_cpa_protocol_disable` and `oplus_cpa_protocol_enable`. -/
def protocolDisable (type : Protocol) : Cpa :=
  { cpa with protocolDisableMask := insert type cpa.protocolDisableMask }

def protocolEnable (type : Protocol) : Cpa :=
  { cpa with protocolDisableMask := cpa.protocolDisableMask.erase type }

def modifyInfo (table : List ProtocolInfo) (type : Protocol) (f : ProtocolInfo → ProtocolInfo) :
    List ProtocolInfo :=
  table.modify (table.findIdx fun info => info.type = some type) f

/-- `oplus_cpa_protocol_set_power`. -/
def protocolSetPower (type : Protocol) (powerMw : Int) : Cpa :=
  { cpa with
    protocolPrioTable := modifyInfo cpa.protocolPrioTable type fun info =>
      { info with powerMw := min powerMw info.maxPowerMw } }

/-- `oplus_cpa_protocol_clear_power`. -/
def protocolClearPower (table : List ProtocolInfo) (type : Protocol) : List ProtocolInfo :=
  modifyInfo table type fun info =>
    { info with
      powerMw := if type = .pd ∨ type = .qc ∨ type = .bc12 then info.maxPowerMw else 0 }

/-- `oplus_cpa_chg_type_change_work` up to `cpa_request_lock`. -/
def chgTypeChange (wiredType : UsbType) : Option Cpa :=
  if cpa.chgTypeChangeWork.Ready then
    let cpa := { cpa with chgTypeChangeWork := .idle }
    if cpa.wiredOnline = false ∨ cpa.wiredRealChgType = wiredType then some cpa
    else if wiredType ∈ [.unknown, .sdp, .pdDrp, .pdSdp, .cdp] then
      some { cpa with wiredRealChgType := wiredType }
    else if wiredType = .pdPps ∧ cpa.wiredRealChgType = .pd ∧ .pps ∈ cfg.defaultProtocolType ∧
        .pps ∈ cpa.readyProtocolType then
      if cpa.retentionState then some { cpa with wiredRealChgType := wiredType }
      else some { cpa with chgTypeChangeWork := ⟨false, some (.retryPps wiredType)⟩ }
    else if cpa.defReq then some { cpa with wiredRealChgType := wiredType }
    else
      let pending := cpa.requestPending || !decide (cfg.defaultProtocolType ⊆ cpa.readyProtocolType)
      if cpa.requestLocked then
        some { cpa with requestPending := true, wiredRealChgType := wiredType }
      else
        some { cpa with
          requestPending := pending
          chgTypeChangeWork := ⟨false, some (.requestDefault wiredType)⟩ }
  else none

/-- Under `cpa_request_lock`. -/
def chgTypeRequest (present : Bool) : Option Cpa :=
  let close (cpa : Cpa) (wiredType : UsbType) : Cpa :=
    { cpa with chgTypeChangeWork := { cpa.chgTypeChangeWork with running := some (.closing wiredType) } }
  match cpa.chgTypeChangeWork.running with
  | some (.retryPps wiredType) =>
    some (close (cpa.protocolIdentifyRequest {.pps} present).1 wiredType)
  | some (.requestDefault wiredType) => some (close (cpa.requestDefault cfg present) wiredType)
  | _ => none

def chgTypeClose : Option Cpa :=
  match cpa.chgTypeChangeWork.running with
  | some (.closing wiredType) =>
    some { cpa with
      wiredRealChgType := wiredType
      chgTypeChangeWork := { cpa.chgTypeChangeWork with running := none } }
  | _ => none

/-! ### The cable -/

def scheduleOffline : Cpa := { cpa with wiredOfflineWork := cpa.wiredOfflineWork.schedule }

/-- `wired_offline_work` is done, as one that flushes it gets to know. -/
def offlineDone : Cpa :=
  { cpa with
    wiredOfflineWork := { cpa.wiredOfflineWork with running := none }
    wiredOnlineWork := { cpa.wiredOnlineWork with
      running := cpa.wiredOnlineWork.running.map fun | .flushing runs => .flushing (runs - 1) } }

/-- `oplus_cpa_wired_offline_work` up to the notification. -/
def wiredOffline : Option Cpa :=
  if cpa.wiredOfflineWork.Ready then
    let cpa := { cpa with wiredOfflineWork := { cpa.wiredOfflineWork with pending := false } }
    if cpa.statusReset ∨ cpa.wiredOnline then some cpa.offlineDone
    else
      some { cpa with
        protocolSwitchTimeoutWork := false
        currentProtocolType := none
        wiredOfflineWork := { cpa.wiredOfflineWork with running := some .resetting } }
  else none

def wiredOfflineReset : Option Cpa :=
  if cpa.wiredOfflineWork.running = some .resetting then
    some (offlineDone
      { cpa with
        protocolToBeSwitched := ∅
        protocolDisableMask := ∅
        defReq := false
        requestPending := false
        wiredRealChgType := .unknown
        protocolPrioTable := (cpa.protocolPrioTable.filterMap ProtocolInfo.type).foldl
          protocolClearPower cpa.protocolPrioTable
        statusReset := true })
  else none

/-- `oplus_cpa_wired_online_work` up to `flush_work`. -/
def wiredOnlineStart (plugoutPassed : Bool) : Option Cpa :=
  if cpa.wiredOnlineWork.Ready then
    let cpa :=
      if cpa.statusReset then cpa
      else if cfg.retentionTopic ∧ cpa.ccNotPlug = false ∧ plugoutPassed = false then cpa
      else cpa.scheduleOffline
    some { cpa with wiredOnlineWork := ⟨false, some (.flushing cpa.wiredOfflineWork.runs)⟩ }
  else none

def wiredOnlineFinish (online : Bool) (realChgType : UsbType) : Option Cpa :=
  if cpa.wiredOnlineWork.running = some (.flushing 0) then
    let cpa := { cpa with wiredOnlineWork := { cpa.wiredOnlineWork with running := none } }
    if online = false then some cpa
    else
      let cpa := { cpa with wiredOnline := true, statusReset := false }
      if realChgType = .unknown then some cpa
      else some { cpa with chgTypeChangeWork := cpa.chgTypeChangeWork.schedule }
  else none

/-- `WIRED_ITEM_ONLINE`. -/
def onlineItem (online : Bool) : Cpa :=
  if online then
    { cpa with
      retentionStateReady := cpa.retentionStateReady && cpa.retentionState
      wiredOnlineWork := cpa.wiredOnlineWork.schedule }
  else
    let cpa := { cpa with wiredOnline := false }
    let cpa :=
      if cfg.retentionTopic = false ∨
          ((cpa.retentionStateReady ∨ cpa.preRetentionState) ∧ cpa.retentionState = false) then
        cpa.scheduleOffline
      else cpa
    { cpa with preRetentionState := cpa.retentionState }

/-- `WIRED_ITEM_REAL_CHG_TYPE`. -/
def realChgTypeItem : Cpa := { cpa with chgTypeChangeWork := cpa.chgTypeChangeWork.schedule }

/-- `WIRED_ITEM_CC_DETECT`. -/
def ccDetectItem (notPlug : Bool) : Cpa :=
  let cpa := { cpa with ccNotPlug := notPlug }
  if cfg.retentionTopic ∧ cpa.wiredOnline = false ∧ notPlug then cpa.scheduleOffline else cpa

/-- `WIRED_ITEM_PRESENT`. -/
def presentItem (present : Bool) : Cpa := { cpa with wiredPresent := present }

/-- `RETENTION_ITEM_CONNECT_STATUS`. -/
def connectStatusItem (status : Bool) : Cpa :=
  let cpa := if status = false ∧ cpa.retentionState then cpa.scheduleOffline else cpa
  { cpa with
    retentionState := status
    preRetentionState := (cpa.preRetentionState || status) && !(cpa.wiredPresent && !status) }

/-- `RETENTION_ITEM_STATE_READY`. -/
def stateReadyItem : Cpa :=
  let cpa := { cpa with retentionStateReady := true }
  if cpa.retentionState = false ∧ cpa.wiredOnline = false then cpa.scheduleOffline else cpa

end Cpa

/-! ### Steps -/

inductive Move
  | request (type : Protocol) (present : Bool)
  | vote (client : String) (enabled : Bool)
  | requestUnlocked (present : Bool)
  | protocolReady (type : Protocol)
  | protocolReadyTimeout
  | readyVote
  | protocolSwitch (adapter : Adapter)
  | switchPublished (ok : Bool)
  | switchArm
  | switchClear
  | switchRetry (present : Bool)
  | protocolSwitchTimeout
  | switchStart (type : Protocol)
  | switchStarted
  | switchEnd (type : Protocol)
  | switchEnding
  | switchEnded (present : Bool)
  | protocolDisable (type : Protocol)
  | protocolEnable (type : Protocol)
  | protocolSetPower (type : Protocol) (powerMw : Int)
  | chgTypeChange (wiredType : UsbType)
  | chgTypeRequest (present : Bool)
  | chgTypeClose
  | wiredOffline
  | wiredOfflineReset
  | wiredOnlineStart (plugoutPassed : Bool)
  | wiredOnlineFinish (online : Bool) (realChgType : UsbType)
  | onlineItem (online : Bool)
  | realChgTypeItem
  | ccDetectItem (notPlug : Bool)
  | presentItem (present : Bool)
  | connectStatusItem (status : Bool)
  | stateReadyItem

namespace Cpa

def step (cfg : Config) (cpa : Cpa) : Move → Option Cpa
  | .request type present => some (cpa.request cfg type present)
  | .vote client enabled => cpa.voteReqLock (.client client) enabled
  | .requestUnlocked present => cpa.requestUnlocked cfg present
  | .protocolReady type => some (cpa.protocolReady cfg type)
  | .protocolReadyTimeout => cpa.protocolReadyTimeout
  | .readyVote => cpa.readyVote
  | .protocolSwitch adapter => cpa.protocolSwitch cfg adapter
  | .switchPublished ok => cpa.switchPublished ok
  | .switchArm => cpa.switchArm
  | .switchClear => cpa.switchClear
  | .switchRetry present => cpa.switchRetry present
  | .protocolSwitchTimeout => cpa.protocolSwitchTimeout
  | .switchStart type => some (cpa.switchStart type)
  | .switchStarted => cpa.switchStarted
  | .switchEnd type => some (cpa.switchEnd type)
  | .switchEnding => cpa.switchEnding
  | .switchEnded present => cpa.switchEnded present
  | .protocolDisable type => some (cpa.protocolDisable type)
  | .protocolEnable type => some (cpa.protocolEnable type)
  | .protocolSetPower type powerMw => some (cpa.protocolSetPower type powerMw)
  | .chgTypeChange wiredType => cpa.chgTypeChange cfg wiredType
  | .chgTypeRequest present => cpa.chgTypeRequest cfg present
  | .chgTypeClose => cpa.chgTypeClose
  | .wiredOffline => cpa.wiredOffline
  | .wiredOfflineReset => cpa.wiredOfflineReset
  | .wiredOnlineStart plugoutPassed => cpa.wiredOnlineStart cfg plugoutPassed
  | .wiredOnlineFinish online realChgType => cpa.wiredOnlineFinish online realChgType
  | .onlineItem online => some (cpa.onlineItem cfg online)
  | .realChgTypeItem => some cpa.realChgTypeItem
  | .ccDetectItem notPlug => some (cpa.ccDetectItem cfg notPlug)
  | .presentItem present => some (cpa.presentItem present)
  | .connectStatusItem status => some (cpa.connectStatusItem status)
  | .stateReadyItem => some cpa.stateReadyItem

end Cpa

end VendorModules.ChgCpa
