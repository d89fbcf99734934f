import Mathlib
import VendorModules.CamSync.Table
import VendorModules.Lib.Transition

namespace VendorModules.CamSync

open SyncTableRow Function

/-! Threads at work on the table, on an open device. Every section under a row's lock is one
step; what a call holds between two of them is its own. -/

/-- Where a call stands. An object is named next to its row where the row may have come to
hold another one. -/
inductive Activity
  | creating (idx : Nat) (synxObj : Bool)
  | checking (syncObjs rest : List Nat)
  | locking (idx : Nat) (syncObjs : List Nat)
  | merging (idx : Nat) (linked rest : List Nat)
  | undoing (idx : Nat) (linked : List Nat)
  /-- `cam_sync_signal` while the synx object is signaled -/
  | signaling (idx obj : Nat) (status : SyncState) (eventCause : Nat)
  | visiting (child : Nat) (status : SyncState) (eventCause : Nat)
      (parents : List SyncParentInfo)
  | destroying (idx : Nat) (children : List Nat) (parents : List SyncParentInfo)
  | returned
  deriving DecidableEq

structure History where
  next : Nat
  /-- The object that a row holds, or held last. -/
  ident : Nat → Nat
  rowOf : Nat → Nat
  /-- The objects that a group was merged from. -/
  members : Nat → List Nat
  /-- The members a group has heard of: by a visit, or at the merge for those that were
  signaled before. -/
  notified : Nat → List Nat
  /-- The signal that was accepted. -/
  signaled : Nat → Option SyncState
  /-- The state in which an object was first complete. -/
  ended : Nat → Option SyncState
  registrations : Nat
  /-- The object that a registration is for. -/
  registered : Nat → Nat
  delivered : List Delivery
  /-- The registrations taken back, or destroyed with their object. -/
  dropped : List Nat

structure State where
  bitmap : Nat → Bool
  table : Nat → SyncTableRow
  /-- The row locks that are held between two steps. -/
  locked : Nat → Bool
  running : List Activity
  history : History

def State.initial : State where
  bitmap := fun idx => idx == 0
  table := fun _ => .zero
  locked := fun _ => false
  running := []
  history :=
    { next := 0
      ident := fun _ => 0
      rowOf := fun _ => 0
      members := fun _ => []
      notified := fun _ => []
      signaled := fun _ => none
      ended := fun _ => none
      registrations := 0
      registered := fun _ => 0
      delivered := []
      dropped := [] }

def SyncTableRow.Complete (row : SyncTableRow) : Prop := row.state.Signaled ∧ row.remaining = 0

instance : DecidablePred SyncTableRow.Complete := fun _ => instDecidableAnd

def SyncTableRow.numbers (row : SyncTableRow) : List Nat :=
  row.callbackList.map SyncCallbackInfo.number ++ row.userPayloadList.map SyncUserPayload.number

namespace State

variable (s : State)

def setRow (idx : Nat) (row : SyncTableRow) : State :=
  { s with table := update s.table idx row }

def start (activity : Activity) : State := { s with running := s.running ++ [activity] }

def resume (k : Nat) (activity : Activity) : State :=
  { s with running := s.running.set k activity }

def record (idx : Nat) : State :=
  let obj := s.history.ident idx
  let ended := s.history.ended
  { s with history := { s.history with
      ended := if (s.table idx).Complete then
          update ended obj ((ended obj).or (some (s.table idx).state))
        else ended } }

def deliver (deliveries : List Delivery) : State :=
  { s with history := { s.history with delivered := s.history.delivered ++ deliveries } }

/-- `cam_sync_init_row`: from now on the row holds a new object. -/
def initRow (idx : Nat) (type : SyncType) : State :=
  let history := s.history
  { s with
    table := update s.table idx ((s.table idx).initRow type)
    history := { history with
      next := history.next + 1
      ident := update history.ident idx history.next
      rowOf := update history.rowOf history.next idx } }

def create (idx : Nat) (synxObj : Bool) : State :=
  let s := s.initRow idx .indv
  if synxObj then s.setRow idx { s.table idx with synxObj := true } else s

def lockGroup (idx : Nat) : State :=
  { s.initRow idx .group with locked := update s.locked idx true }

def link (idx : Nat) (linked : List Nat) (child : Nat) (rest : List Nat) (alloc : LinkAlloc) :
    State × Activity :=
  let history := s.history
  let group := history.ident idx
  let member := history.ident child
  match (s.table idx).linkChild (s.table child) alloc child ⟨idx, group⟩ with
  | .failed row => (s.setRow idx { row with state := .invalid }, .undoing idx linked.reverse)
  | .linked row childRow =>
    ({ s with
        table := update (update s.table child childRow) idx row
        history := { history with
          members := update history.members group (history.members group ++ [member])
          notified := if (s.table child).state = .active then history.notified
            else update history.notified group (history.notified group ++ [member]) } },
      .merging idx (linked ++ [child]) rest)

def finishGroup (idx : Nat) : State :=
  let s := s.setRow idx (s.table idx).initGroupEnd
  { s with locked := update s.locked idx false }.record idx

def giveUp (idx : Nat) : State :=
  { s.setRow idx { s.table idx with childrenList := [] } with
    bitmap := update s.bitmap idx false }

def accept (idx : Nat) (status : SyncState) : State :=
  let row := s.table idx
  let s := s.setRow idx { row with state := status, refCnt := row.refCnt - 1 }
  let history := s.history
  { s with history := { history with
      signaled := update history.signaled (history.ident idx) (some status) } }.record idx

/-- The rest of `cam_sync_signal` under the row's lock -/
def finishSignal (idx : Nat) (status : SyncState) (eventCause : Nat) :
    State × List SyncParentInfo :=
  let (row, deliveries) := dispatchSignaledCb true idx (s.table idx) status eventCause
  ((s.setRow idx { row with parentsList := [] }).deliver deliveries, row.parentsList)

def visit (parent : SyncParentInfo) (child : Nat) (status : SyncState) (eventCause : Nat) :
    State :=
  let idx := parent.syncId
  let (row, deliveries) := signalParent true idx (s.table idx) status eventCause
  let s := (s.setRow idx row).deliver deliveries
  let history := s.history
  let heard := history.notified parent.group ++ [child]
  { s with history := { history with
      notified := update history.notified parent.group heard } }.record idx

/-- `memset` and `clear_bit` at the end of `cam_sync_deinit_object` -/
def free (idx : Nat) : State :=
  { s.setRow idx .zero with
    bitmap := update s.bitmap idx false
    history := { s.history with
      dropped := s.history.dropped ++ (s.table idx).numbers } }

def register (idx : Nat) : State :=
  let history := s.history
  { s with history := { history with
      registrations := history.registrations + 1
      registered := update history.registered history.registrations (history.ident idx) } }

def drop (numbers : List Nat) : State :=
  { s with history := { s.history with dropped := s.history.dropped ++ numbers } }

def lockRow (idx : Nat) : Option SyncTableRow :=
  if 0 < idx ∧ idx < CAM_SYNC_MAX_OBJS ∧ s.locked idx = false then some (s.table idx) else none

/-- A bit that `find_first_zero_bit` and `test_and_set_bit` may end at. -/
def FreeBit (idx : Nat) : Prop := 0 < idx ∧ idx < CAM_SYNC_MAX_OBJS ∧ s.bitmap idx = false

instance (idx : Nat) : Decidable (s.FreeBit idx) := instDecidableAnd

end State

def Activity.next (s : State) (alloc : LinkAlloc) : Activity → Option (State × Activity)
  | .creating idx synxObj =>
    if s.locked idx then none else some (s.create idx synxObj, .returned)
  | .checking _ [] => none
  | .checking syncObjs (idx :: rest) =>
    if idx = 0 ∨ CAM_SYNC_MAX_OBJS ≤ idx then some (s, .returned)
    else if s.locked idx then none
    else if s.bitmap idx = false ∨ (s.table idx).state = .invalid then some (s, .returned)
    else some (s, .checking syncObjs rest)
  | .locking idx syncObjs =>
    if s.locked idx then none else some (s.lockGroup idx, .merging idx [] syncObjs)
  | .merging idx _ [] => some (s.finishGroup idx, .returned)
  | .merging idx linked (child :: rest) =>
    if s.locked child then none else some (s.link idx linked child rest alloc)
  | .undoing idx [] => some (s.giveUp idx, .returned)
  | .undoing idx (child :: linked) =>
    if s.locked child then none
    else some (s.setRow child ((s.table child).cleanupParentsList idx), .undoing idx linked)
  | .signaling idx obj status eventCause =>
    if s.locked idx then none
    else
      let (s, parents) := s.finishSignal idx status eventCause
      some (s, .visiting obj status eventCause parents)
  | .visiting _ _ _ [] => none
  | .visiting child status eventCause (parent :: parents) =>
    if s.locked parent.syncId then none
    else some (s.visit parent child status eventCause, .visiting child status eventCause parents)
  | .destroying idx (child :: children) parents =>
    if s.locked child then none
    else if (s.table child).state = .invalid then some (s, .destroying idx children parents)
    else some (s.setRow child ((s.table child).cleanupParentsList idx),
      .destroying idx children parents)
  | .destroying idx [] (parent :: parents) =>
    if s.locked parent.syncId then none
    else if (s.table parent.syncId).state = .invalid then some (s, .destroying idx [] parents)
    else some (s.setRow parent.syncId ((s.table parent.syncId).cleanupChildrenList idx),
      .destroying idx [] parents)
  | .destroying idx [] [] => if s.locked idx then none else some (s.free idx, .returned)
  | .returned => none

inductive Move
  | create (idx : Nat) (synxObj : Bool)
  | merge (syncObjs : List Nat)
  | take (k idx : Nat)
  | getObjRef (idx : Nat)
  | putObjRef (idx : Nat)
  | signal (idx status eventCause : Nat)
  | registerCallback (idx callbackFunc cbData : Nat)
  | deregisterCallback (idx callbackFunc cbData : Nat)
  | registerUserPayload (idx : Nat) (payloadData : Nat × Nat)
  | deregisterUserPayload (idx : Nat) (payloadData : Nat × Nat)
  | destroy (idx : Nat)
  | advance (k : Nat) (alloc : LinkAlloc := ⟨true, true⟩)

def step (s : State) : Move → Option State
  | .create idx synxObj =>
    if s.FreeBit idx then
      some ({ s with bitmap := update s.bitmap idx true }.start (.creating idx synxObj))
    else none
  | .merge syncObjs =>
    if 1 < syncObjs.length ∧ syncObjs.Nodup then some (s.start (.checking syncObjs syncObjs))
    else some s
  | .take k idx =>
    match s.running[k]? with
    | some (.checking syncObjs []) =>
      if s.FreeBit idx then
        some ({ s with bitmap := update s.bitmap idx true }.resume k (.locking idx syncObjs))
      else none
    | _ => none
  | .getObjRef idx => (s.lockRow idx).map fun row =>
    if row.state = .active then s.setRow idx { row with refCnt := row.refCnt + 1 } else s
  | .putObjRef idx =>
    if 0 < idx ∧ idx < CAM_SYNC_MAX_OBJS then
      some (s.setRow idx { s.table idx with refCnt := (s.table idx).refCnt - 1 })
    else some s
  | .signal idx status eventCause => (s.lockRow idx).map fun row =>
    match row.signalValidate status with
    | .error _ => s
    | .ok state =>
      if row.refCnt - 1 ≠ 0 then s.setRow idx { row with refCnt := row.refCnt - 1 }
      else
        let obj := s.history.ident idx
        let s := s.accept idx state
        if row.synxObj then s.start (.signaling idx obj state eventCause)
        else
          let (s, parents) := s.finishSignal idx state eventCause
          s.start (.visiting obj state eventCause parents)
  | .registerCallback idx callbackFunc cbData => (s.lockRow idx).map fun row =>
    match row.registerCallback idx ⟨callbackFunc, cbData, s.history.registrations⟩ with
    | .error _ => s
    | .ok (row, deliveries) => ((s.register idx).setRow idx row).deliver deliveries
  | .deregisterCallback idx callbackFunc cbData => (s.lockRow idx).map fun row =>
    match row.deregisterCallback callbackFunc cbData with
    | .error _ => s
    | .ok row' => (s.setRow idx row').drop
        ((row.callbackList.filter (callbackMatches callbackFunc cbData)).map
          SyncCallbackInfo.number)
  | .registerUserPayload idx payloadData => (s.lockRow idx).map fun row =>
    match row.registerUserPayload idx ⟨payloadData, s.history.registrations⟩ with
    | .error _ => s
    | .ok (row, deliveries) => ((s.register idx).setRow idx row).deliver deliveries
  | .deregisterUserPayload idx payloadData => (s.lockRow idx).map fun row =>
    match row.deregisterUserPayload payloadData with
    | .error _ => s
    | .ok row' => (s.setRow idx row').drop
        ((row.userPayloadList.filter (·.payloadData = payloadData)).map SyncUserPayload.number)
  | .destroy idx => (s.lockRow idx).map fun row =>
    if row.state = .invalid then s
    else (s.setRow idx row.detach).start
      (.destroying idx (row.childrenList.filter fun child => 0 < child)
        (row.parentsList.filter fun parent => 0 < parent.syncId))
  | .advance k alloc =>
    (s.running[k]?).bind fun activity =>
      (activity.next s alloc).map fun (next, activity) => next.resume k activity

/-! ## What is under way -/

def State.Live (s : State) (idx : Nat) : Prop := (s.table idx).state ≠ .invalid

def State.Lives (s : State) (obj : Nat) : Prop :=
  s.Live (s.history.rowOf obj) ∧ s.history.ident (s.history.rowOf obj) = obj

def Activity.visits (group member : Nat) : Activity → Nat
  | .visiting child _ _ parents =>
    if child = member then parents.countP (·.group = group) else 0
  | _ => 0

def State.visits (s : State) (group member : Nat) : Nat :=
  (s.running.map (Activity.visits group member)).sum

instance (s : State) (idx : Nat) : Decidable (s.Live idx) := instDecidableNot

instance (s : State) (obj : Nat) : Decidable (s.Lives obj) := instDecidableAnd

end VendorModules.CamSync
