import Mathlib

namespace VendorModules.CamSync

/-! The camera's table of sync objects: one row and the functions on it. -/

abbrev CAM_SYNC_MAX_OBJS : Nat := 2048

abbrev CAM_SYNC_COMMON_REG_PAYLOAD_EVENT : Nat := 5

inductive SyncType
  | indv
  | group
  deriving DecidableEq, Repr

/-- `CAM_SYNC_STATE_*` -/
inductive SyncState
  | invalid
  | active
  | signaledSuccess
  | signaledError
  | signaledCancel
  deriving DecidableEq, Repr

inductive Errno
  | EINVAL
  | EALREADY
  | ENOENT
  deriving DecidableEq, Repr

def SyncState.Signaled (state : SyncState) : Prop :=
  state = .signaledSuccess ∨ state = .signaledError ∨ state = .signaledCancel

instance : DecidablePred SyncState.Signaled := fun _ => instDecidableOr

theorem SyncState.signaled_iff {state : SyncState} :
    state.Signaled ↔ state ≠ .invalid ∧ state ≠ .active := by
  cases state <;> simp [SyncState.Signaled]

def SyncState.ofStatus : Nat → Option SyncState
  | 2 => some .signaledSuccess
  | 3 => some .signaledError
  | 4 => some .signaledCancel
  | _ => none

theorem SyncState.ofStatus_signaled {status : Nat} {state : SyncState}
    (known : SyncState.ofStatus status = some state) : state.Signaled := by
  unfold SyncState.ofStatus at known
  split at known
  · exact Option.some.inj known ▸ .inl rfl
  · exact Option.some.inj known ▸ .inr (.inl rfl)
  · exact Option.some.inj known ▸ .inr (.inr rfl)
  · cases known

/-- An entry of a parents list. `group` is the object that the row was when the entry was
made; no function reads it. -/
structure SyncParentInfo where
  syncId : Nat
  group : Nat
  deriving DecidableEq, Repr

/-- `number` tells the registrations apart; no function reads it. -/
structure SyncCallbackInfo where
  callbackFunc : Nat
  cbData : Nat
  number : Nat
  deriving DecidableEq, Repr

structure SyncUserPayload where
  payloadData : Nat × Nat
  number : Nat
  deriving DecidableEq, Repr

structure SyncTableRow where
  type : SyncType
  parentsList : List SyncParentInfo
  childrenList : List Nat
  state : SyncState
  remaining : Nat
  callbackList : List SyncCallbackInfo
  userPayloadList : List SyncUserPayload
  refCnt : Int
  /-- The object was created with a synx object. -/
  synxObj : Bool
  deriving DecidableEq, Repr

namespace SyncTableRow

def zero : SyncTableRow where
  type := .indv
  parentsList := []
  childrenList := []
  state := .invalid
  remaining := 0
  callbackList := []
  userPayloadList := []
  refCnt := 0
  synxObj := false

/-- `cam_sync_init_row` -/
def initRow (row : SyncTableRow) (type : SyncType) : SyncTableRow :=
  { row with
    type := type
    parentsList := []
    childrenList := []
    state := .active
    remaining := 0
    refCnt := 0
    callbackList := []
    userPayloadList := [] }

/-! ## Notices -/

inductive Message
  | callback (callbackFunc syncObj : Nat) (status : SyncState) (cbData : Nat)
  | event (syncObj : Nat) (status : SyncState) (payloadData : Nat × Nat) (eventCause : Nat)
  deriving DecidableEq, Repr

def Message.status : Message → SyncState
  | .callback _ _ status _ => status
  | .event _ status _ _ => status

structure Delivery where
  message : Message
  number : Nat
  deriving DecidableEq, Repr

def deliverCallback (syncObj : Nat) (status : SyncState) (info : SyncCallbackInfo) : Delivery :=
  ⟨.callback info.callbackFunc syncObj status info.cbData, info.number⟩

def deliverPayload (syncObj : Nat) (status : SyncState) (eventCause : Nat)
    (info : SyncUserPayload) : Delivery :=
  ⟨.event syncObj status info.payloadData eventCause, info.number⟩

/-- `cam_sync_util_dispatch_signaled_cb`. Without an event queue the payloads stay. -/
def dispatchSignaledCb (eventq : Bool) (syncObj : Nat) (row : SyncTableRow) (status : SyncState)
    (eventCause : Nat) : SyncTableRow × List Delivery :=
  if row.state = .invalid then (row, [])
  else
    let called := row.callbackList.map (deliverCallback syncObj status)
    let row := { row with callbackList := [] }
    if eventq then
      ({ row with userPayloadList := [] },
        called ++ row.userPayloadList.map (deliverPayload syncObj status eventCause))
    else (row, called)

/-- `cam_sync_register_callback` -/
def registerCallback (syncObj : Nat) (row : SyncTableRow) (info : SyncCallbackInfo) :
    Except Errno (SyncTableRow × List Delivery) :=
  if row.state = .invalid then .error .EINVAL
  else if row.state.Signaled ∧ row.remaining = 0 then
    .ok (row, [deliverCallback syncObj row.state info])
  else .ok ({ row with callbackList := row.callbackList ++ [info] }, [])

def callbackMatches (callbackFunc cbData : Nat) (info : SyncCallbackInfo) : Bool :=
  info.callbackFunc = callbackFunc ∧ info.cbData = cbData

/-- `cam_sync_deregister_callback` -/
def deregisterCallback (row : SyncTableRow) (callbackFunc cbData : Nat) :
    Except Errno SyncTableRow :=
  if row.state = .invalid then .error .EINVAL
  else if row.callbackList.any (callbackMatches callbackFunc cbData) then
    .ok { row with
      callbackList := row.callbackList.filter fun info =>
        !callbackMatches callbackFunc cbData info }
  else .error .ENOENT

/-- `cam_sync_handle_register_user_payload`: here the remaining members are not asked for. -/
def registerUserPayload (syncObj : Nat) (row : SyncTableRow) (info : SyncUserPayload) :
    Except Errno (SyncTableRow × List Delivery) :=
  if row.state = .invalid then .error .EINVAL
  else if row.state.Signaled then
    .ok (row, [deliverPayload syncObj row.state CAM_SYNC_COMMON_REG_PAYLOAD_EVENT info])
  else if row.userPayloadList.any (·.payloadData = info.payloadData) then .error .EALREADY
  else .ok ({ row with userPayloadList := row.userPayloadList ++ [info] }, [])

/-- `cam_sync_handle_deregister_user_payload` -/
def deregisterUserPayload (row : SyncTableRow) (payloadData : Nat × Nat) :
    Except Errno SyncTableRow :=
  if row.state = .invalid then .error .EINVAL
  else .ok { row with
    userPayloadList := row.userPayloadList.filter (·.payloadData ≠ payloadData) }

/-! ## Signals -/

/-- `cam_sync_signal_validate_util` -/
def signalValidate (row : SyncTableRow) (status : Nat) : Except Errno SyncState :=
  if row.state = .invalid then .error .EINVAL
  else if row.type = .group then .error .EINVAL
  else if row.state ≠ .active then .error .EALREADY
  else match SyncState.ofStatus status with
    | some state => .ok state
    | none => .error .EINVAL

/-- `cam_sync_util_update_parent_state` -/
def updateParentState (row : SyncTableRow) (newState : SyncState) : Except Errno SyncTableRow :=
  match row.state with
  | .active | .signaledSuccess => .ok { row with state := newState }
  | .signaledError | .signaledCancel => .ok row
  | .invalid => .error .EINVAL

/-- `cam_sync_signal_parent_util` for one parent -/
def signalParent (eventq : Bool) (syncObj : Nat) (row : SyncTableRow) (status : SyncState)
    (eventCause : Nat) : SyncTableRow × List Delivery :=
  let row := { row with remaining := (row.remaining + (2 ^ 32 - 1)) % 2 ^ 32 }
  match updateParentState row status with
  | .error _ => (row, [])
  | .ok row =>
    if row.remaining = 0 then dispatchSignaledCb eventq syncObj row row.state eventCause
    else (row, [])

/-! ## Groups -/

structure LinkAlloc where
  childInfo : Bool
  parentInfo : Bool
  deriving DecidableEq, Repr

inductive Linked
  | failed (row : SyncTableRow)
  | linked (row child : SyncTableRow)

/-- The loop of `cam_sync_init_group_object` for one child -/
def linkChild (row child : SyncTableRow) (alloc : LinkAlloc) (childIdx : Nat)
    (parent : SyncParentInfo) : Linked :=
  if child.type = .group ∨ child.state = .invalid then .failed row
  else if child.state = .signaledError ∨ child.state = .signaledCancel then
    .linked { row with state := child.state } child
  else if child.state ≠ .active then .linked row child
  else
    let row := { row with remaining := (row.remaining + 1) % 2 ^ 32 }
    if !alloc.childInfo then .failed row
    else
      let row := { row with childrenList := row.childrenList ++ [childIdx] }
      if !alloc.parentInfo then .failed row
      else .linked row { child with parentsList := child.parentsList ++ [parent] }

/-- The end of `cam_sync_init_group_object` -/
def initGroupEnd (row : SyncTableRow) : SyncTableRow :=
  if row.remaining = 0 ∧ row.state ≠ .signaledError ∧ row.state ≠ .signaledCancel then
    { row with state := .signaledSuccess }
  else row

/-- `cam_sync_util_cleanup_parents_list` with `SYNC_LIST_CLEAN_ONE` -/
def cleanupParentsList (row : SyncTableRow) (syncObj : Nat) : SyncTableRow :=
  { row with parentsList := row.parentsList.eraseP (·.syncId = syncObj) }

/-- `cam_sync_util_cleanup_children_list` with `SYNC_LIST_CLEAN_ONE` -/
def cleanupChildrenList (row : SyncTableRow) (syncObj : Nat) : SyncTableRow :=
  { row with childrenList := row.childrenList.erase syncObj }

/-- The first section of `cam_sync_deinit_object` -/
def detach (row : SyncTableRow) : SyncTableRow :=
  { row with
    state := .invalid
    childrenList := row.childrenList.filter fun child => ¬ 0 < child
    parentsList := row.parentsList.filter fun parent => ¬ 0 < parent.syncId }

end SyncTableRow

end VendorModules.CamSync
