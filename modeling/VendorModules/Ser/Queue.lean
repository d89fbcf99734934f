import Mathlib

namespace VendorModules.Ser

/-- `wlan_serialization_cmd_type`. -/
inductive CmdType
  | scan
  | nonscan
  | forceDisassocSta
  | forceDeauthSta
  | performPreAuth
  | wmStatusChange
  | ndpInitReq
  | ndpRespReq
  | ndpDataEndInitReq
  | ndpEndAllReq
  | addts
  | delts
  | tdlsSendMgmt
  | tdlsAddPeer
  | tdlsDelPeer
  | setHwMode
  | nssUpdate
  | setDualMacConfig
  | setAntennaMode
  | vdevDelete
  | vdevStartBss
  | vdevStopBss
  | vdevConnect
  | vdevDisconnect
  | vdevRestart
  | pdevRestart
  | pdevCsaRestart
  | vdevRoam
  | setMloLink
  | mloVdevLinkSwitch
  | sapBwUpdate
  | highApAvailability
  deriving DecidableEq, Repr

inductive Kind
  | scan
  | nonScan
  deriving DecidableEq, Repr

/-- `cmd_type < WLAN_SER_CMD_NONSCAN` chooses the queue. -/
def CmdType.kind : CmdType → Kind
  | .scan => .scan
  | _ => .nonScan

def pdevMaxVdevs : Nat := 17

def psocMaxVdevs : Nat := 51

def maxActiveCmds : Nat := pdevMaxVdevs

def maxPendingCmds : Nat := pdevMaxVdevs * 4

def maxActiveScanCmds : Nat := 8

def maxPendingScanCmds : Nat := 24

instance : NeZero psocMaxVdevs := ⟨by decide⟩

abbrev VdevId := Fin psocMaxVdevs

abbrev NodeId := Nat

structure Command where
  cmdType : CmdType
  cmdId : UInt32
  /-- `cmd_cb` is set. -/
  cmdCb : Bool
  isHighPriority : Bool
  isBlocking : Bool
  queueDisable : Bool
  vdev : VdevId
  deriving DecidableEq, Repr

structure Key where
  cmdType : CmdType
  cmdId : UInt32
  vdev : Option VdevId
  deriving DecidableEq, Repr

def Command.key (cmd : Command) : Key :=
  { cmdType := cmd.cmdType, cmdId := cmd.cmdId, vdev := some cmd.vdev }

/-- The bits of `cmd_in_use`. -/
structure Marks where
  markedForActivation : Bool := false
  isActive : Bool := false
  markedForCancel : Bool := false
  markedForRemoval : Bool := false
  markedForMovement : Bool := false
  deriving DecidableEq, Repr

/-- A command as it was accepted. The number of its acceptance is ours: it tells the
commands apart. -/
structure Accepted where
  ticket : Nat
  cmd : Command
  deriving DecidableEq, Repr

/-- `wlan_serialization_command_list`, with the timer that points to its command. -/
structure Node where
  content : Option Accepted := none
  marks : Marks := {}
  timer : Bool := false
  deriving DecidableEq, Repr

namespace Node

def key (node : Node) : Key :=
  match node.content with
  | some accepted => accepted.cmd.key
  | none => { cmdType := .scan, cmdId := 0, vdev := none }

def vdev? (node : Node) : Option VdevId := node.content.map fun accepted => accepted.cmd.vdev

def isBlocking (node : Node) : Bool :=
  node.content.any fun accepted => accepted.cmd.isBlocking

def setMarks (node : Node) (change : Marks → Marks) : Node :=
  { node with marks := change node.marks }

variable {node node' : Node}

theorem vdev?_congr (same : node.content = node'.content) : node.vdev? = node'.vdev? := by
  rw [vdev?, same]
  rfl

theorem isBlocking_congr (same : node.content = node'.content) :
    node.isBlocking = node'.isBlocking := by
  rw [isBlocking, same]
  rfl

end Node

structure Queue where
  kind : Kind
  node : NodeId → Node
  active : List NodeId
  pending : List NodeId
  pool : List NodeId
  vdevActive : VdevId → List NodeId
  vdevPending : VdevId → List NodeId
  queueDisable : VdevId → Bool
  vdevActiveCmd : VdevId → Bool
  blockingCmdActive : Bool
  blockingCmdWaiting : UInt16

inductive Status
  | pending
  | active
  | deniedListFull
  | queueDisabled
  | deniedUnspecified
  deriving DecidableEq, Repr

/-- What came of a removal from a list: a command that is marked for activation stays,
marked for its removal. -/
inductive Removal
  | failure
  | pending
  | success (node : NodeId)
  deriving DecidableEq, Repr

namespace Queue

def pdevList (queue : Queue) (isActive : Bool) : List NodeId :=
  if isActive then queue.active else queue.pending

def setPdevList (queue : Queue) (isActive : Bool) (list : List NodeId) : Queue :=
  if isActive then { queue with active := list } else { queue with pending := list }

def vdevList (queue : Queue) (isActive : Bool) (vdev : VdevId) : List NodeId :=
  if isActive then queue.vdevActive vdev else queue.vdevPending vdev

def setVdevList (queue : Queue) (isActive : Bool) (vdev : VdevId) (list : List NodeId) :
    Queue :=
  if isActive then
    { queue with vdevActive := Function.update queue.vdevActive vdev list }
  else
    { queue with vdevPending := Function.update queue.vdevPending vdev list }

def maxOnPdev (queue : Queue) (isActive : Bool) : Nat :=
  match queue.kind with
  | .scan => if isActive then maxActiveScanCmds else maxPendingScanCmds
  | .nonScan => if isActive then maxActiveCmds else maxPendingCmds

def maxOnVdev (isActive : Bool) : Nat :=
  if isActive then maxActiveCmds / pdevMaxVdevs else maxPendingCmds / pdevMaxVdevs

def setNode (queue : Queue) (n : NodeId) (node : Node) : Queue :=
  { queue with node := Function.update queue.node n node }

def setMarks (queue : Queue) (n : NodeId) (change : Marks → Marks) : Queue :=
  queue.setNode n ((queue.node n).setMarks change)

section Fields

variable (queue : Queue) (n : NodeId) (node : Node) (isActive : Bool) (vdev : VdevId)
  (list : List NodeId)

@[simp] theorem setNode_self : (queue.setNode n node).node n = node := by
  simp [setNode]

theorem setNode_of_ne {m : NodeId} (other : m ≠ n) :
    (queue.setNode n node).node m = queue.node m := by
  simp [setNode, other]

variable {queue n node} in
theorem setNode_content {m : NodeId} (same : node.content = (queue.node n).content) :
    ((queue.setNode n node).node m).content = (queue.node m).content := by
  by_cases here : m = n
  · subst here
    rw [setNode_self, same]
  · rw [setNode_of_ne _ _ _ here]

variable {queue n} in
theorem setMarks_content {change : Marks → Marks} {m : NodeId} :
    ((queue.setMarks n change).node m).content = (queue.node m).content :=
  setNode_content rfl

@[simp] theorem setNode_kind : (queue.setNode n node).kind = queue.kind := rfl

@[simp] theorem setNode_pool : (queue.setNode n node).pool = queue.pool := rfl

@[simp] theorem setNode_active : (queue.setNode n node).active = queue.active := rfl

@[simp] theorem setNode_pending : (queue.setNode n node).pending = queue.pending := rfl

@[simp] theorem setNode_vdevActive : (queue.setNode n node).vdevActive = queue.vdevActive := rfl

@[simp] theorem setNode_vdevPending : (queue.setNode n node).vdevPending = queue.vdevPending := rfl

@[simp] theorem setNode_queueDisable : (queue.setNode n node).queueDisable = queue.queueDisable := rfl

@[simp] theorem setNode_vdevActiveCmd : (queue.setNode n node).vdevActiveCmd = queue.vdevActiveCmd := rfl

@[simp] theorem setNode_blockingCmdActive : (queue.setNode n node).blockingCmdActive = queue.blockingCmdActive := rfl

@[simp] theorem setNode_blockingCmdWaiting : (queue.setNode n node).blockingCmdWaiting = queue.blockingCmdWaiting := rfl

@[simp] theorem setPdevList_kind :
    (queue.setPdevList isActive list).kind = queue.kind := by
  cases isActive <;> rfl

@[simp] theorem setPdevList_pool :
    (queue.setPdevList isActive list).pool = queue.pool := by
  cases isActive <;> rfl

@[simp] theorem setPdevList_node :
    (queue.setPdevList isActive list).node = queue.node := by
  cases isActive <;> rfl

@[simp] theorem setPdevList_vdevActive :
    (queue.setPdevList isActive list).vdevActive = queue.vdevActive := by
  cases isActive <;> rfl

@[simp] theorem setPdevList_vdevPending :
    (queue.setPdevList isActive list).vdevPending = queue.vdevPending := by
  cases isActive <;> rfl

@[simp] theorem setPdevList_queueDisable :
    (queue.setPdevList isActive list).queueDisable = queue.queueDisable := by
  cases isActive <;> rfl

@[simp] theorem setPdevList_vdevActiveCmd :
    (queue.setPdevList isActive list).vdevActiveCmd = queue.vdevActiveCmd := by
  cases isActive <;> rfl

@[simp] theorem setPdevList_blockingCmdActive :
    (queue.setPdevList isActive list).blockingCmdActive = queue.blockingCmdActive := by
  cases isActive <;> rfl

@[simp] theorem setPdevList_blockingCmdWaiting :
    (queue.setPdevList isActive list).blockingCmdWaiting = queue.blockingCmdWaiting := by
  cases isActive <;> rfl

@[simp] theorem setVdevList_kind :
    (queue.setVdevList isActive vdev list).kind = queue.kind := by
  cases isActive <;> rfl

@[simp] theorem setVdevList_pool :
    (queue.setVdevList isActive vdev list).pool = queue.pool := by
  cases isActive <;> rfl

@[simp] theorem setVdevList_node :
    (queue.setVdevList isActive vdev list).node = queue.node := by
  cases isActive <;> rfl

@[simp] theorem setVdevList_active :
    (queue.setVdevList isActive vdev list).active = queue.active := by
  cases isActive <;> rfl

@[simp] theorem setVdevList_pending :
    (queue.setVdevList isActive vdev list).pending = queue.pending := by
  cases isActive <;> rfl

@[simp] theorem setVdevList_queueDisable :
    (queue.setVdevList isActive vdev list).queueDisable = queue.queueDisable := by
  cases isActive <;> rfl

@[simp] theorem setVdevList_vdevActiveCmd :
    (queue.setVdevList isActive vdev list).vdevActiveCmd = queue.vdevActiveCmd := by
  cases isActive <;> rfl

@[simp] theorem setVdevList_blockingCmdActive :
    (queue.setVdevList isActive vdev list).blockingCmdActive = queue.blockingCmdActive := by
  cases isActive <;> rfl

@[simp] theorem setVdevList_blockingCmdWaiting :
    (queue.setVdevList isActive vdev list).blockingCmdWaiting = queue.blockingCmdWaiting := by
  cases isActive <;> rfl

@[simp] theorem pdevList_true : queue.pdevList true = queue.active := rfl

@[simp] theorem pdevList_false : queue.pdevList false = queue.pending := rfl

@[simp] theorem vdevList_true : queue.vdevList true vdev = queue.vdevActive vdev := rfl

@[simp] theorem vdevList_false : queue.vdevList false vdev = queue.vdevPending vdev := rfl

@[simp] theorem setNode_pdevList :
    (queue.setNode n node).pdevList isActive = queue.pdevList isActive := rfl

@[simp] theorem setNode_vdevList :
    (queue.setNode n node).vdevList isActive vdev = queue.vdevList isActive vdev := rfl

theorem setPdevList_pdevList (other : Bool) :
    (queue.setPdevList isActive list).pdevList other =
      if other = isActive then list else queue.pdevList other := by
  cases isActive <;> cases other <;> rfl

@[simp] theorem setVdevList_pdevList (other : Bool) :
    (queue.setVdevList isActive vdev list).pdevList other = queue.pdevList other := by
  cases isActive <;> cases other <;> rfl

@[simp] theorem setPdevList_vdevList (other : Bool) :
    (queue.setPdevList isActive list).vdevList other vdev = queue.vdevList other vdev := by
  cases isActive <;> cases other <;> rfl

theorem setVdevList_vdevList (other : Bool) (id : VdevId) :
    (queue.setVdevList isActive vdev list).vdevList other id =
      if other = isActive ∧ id = vdev then list else queue.vdevList other id := by
  cases isActive <;> cases other <;> by_cases same : id = vdev <;>
    simp [setVdevList, vdevList, same]

theorem setVdevList_again (again : List NodeId) :
    (queue.setVdevList isActive vdev list).setVdevList isActive vdev again =
      queue.setVdevList isActive vdev again := by
  cases isActive <;> simp [setVdevList]

theorem setVdevList_self :
    queue.setVdevList isActive vdev (queue.vdevList isActive vdev) = queue := by
  cases isActive <;> simp [setVdevList, vdevList]

end Fields

/-- `wlan_serialization_find_cmd` by the command's identifier, type and vdev. -/
def findCmd (queue : Queue) (list : List NodeId) (key : Key) : Option NodeId :=
  list.find? fun n => (queue.node n).key = key

def presenceList (queue : Queue) (isActive : Bool) (key : Key) : List NodeId :=
  match queue.kind, key.vdev with
  | .scan, _ => queue.pdevList isActive
  | .nonScan, some vdev => queue.vdevList isActive vdev
  | .nonScan, none => []

def isCmdPresent (queue : Queue) (key : Key) (isActive : Bool) : Bool :=
  (queue.findCmd (queue.presenceList isActive key) key).isSome

def anyVdevCmdActive (queue : Queue) : Bool :=
  decide (∃ vdev, queue.vdevActiveCmd vdev = true)

def place (cmd : Command) (n : NodeId) (list : List NodeId) : List NodeId :=
  if cmd.isHighPriority then n :: list else list ++ [n]

/-- `wlan_serialization_add_cmd_to_queue`: nothing when the list is full. -/
def addCmdToQueue (list : List NodeId) (max : Nat) (cmd : Command) (n : NodeId) :
    Option (List NodeId) :=
  if list.length = max then none else some (place cmd n list)

/-- `wlan_serialization_remove_cmd_from_queue`, on a list that is put back by `set`. -/
def removeCmdFromQueue (queue : Queue) (list : List NodeId) (set : List NodeId → Queue)
    (key : Key) : Removal × Queue :=
  match queue.findCmd list key with
  | none => (.failure, queue)
  | some n =>
    if (queue.node n).marks.markedForActivation then
      (.pending, queue.setMarks n fun marks => { marks with markedForRemoval := true })
    else
      (.success n, set (list.erase n))

def removeCmdFromVdevQueue (queue : Queue) (key : Key) (isActive : Bool) :
    Removal × Queue :=
  match key.vdev with
  | none => (.failure, queue)
  | some vdev =>
    queue.removeCmdFromQueue (queue.vdevList isActive vdev)
      (queue.setVdevList isActive vdev) key

def removeCmdFromPdevQueue (queue : Queue) (key : Key) (isActive : Bool) :
    Removal × Queue :=
  queue.removeCmdFromQueue (queue.pdevList isActive) (queue.setPdevList isActive) key

def addCmdToPdevQueue (queue : Queue) (n : NodeId) (cmd : Command) (isActive : Bool) :
    Status × Queue :=
  match addCmdToQueue (queue.pdevList isActive) (queue.maxOnPdev isActive) cmd n with
  | none => (.deniedListFull, queue)
  | some list => (if isActive then .active else .pending, queue.setPdevList isActive list)

def disableFor (queue : Queue) (cmd : Command) : Queue :=
  if cmd.queueDisable then
    { queue with queueDisable := Function.update queue.queueDisable cmd.vdev true }
  else queue

@[simp] theorem disableFor_kind (queue : Queue) (cmd : Command) :
    (queue.disableFor cmd).kind = queue.kind := by
  unfold disableFor
  split <;> rfl

@[simp] theorem disableFor_node (queue : Queue) (cmd : Command) :
    (queue.disableFor cmd).node = queue.node := by
  unfold disableFor
  split <;> rfl

@[simp] theorem disableFor_pool (queue : Queue) (cmd : Command) :
    (queue.disableFor cmd).pool = queue.pool := by
  unfold disableFor
  split <;> rfl

@[simp] theorem disableFor_pdevList (queue : Queue) (cmd : Command) (isActive : Bool) :
    (queue.disableFor cmd).pdevList isActive = queue.pdevList isActive := by
  unfold disableFor
  split <;> rfl

@[simp] theorem disableFor_vdevList (queue : Queue) (cmd : Command) (isActive : Bool)
    (vdev : VdevId) :
    (queue.disableFor cmd).vdevList isActive vdev = queue.vdevList isActive vdev := by
  unfold disableFor
  split <;> rfl

theorem setVdevList_disableFor (queue : Queue) (cmd : Command) (isActive : Bool)
    (vdev : VdevId) (list : List NodeId) :
    (queue.setVdevList isActive vdev list).disableFor cmd =
      (queue.disableFor cmd).setVdevList isActive vdev list := by
  unfold disableFor
  cases isActive <;> split <;> rfl

def addCmdToVdevQueue (queue : Queue) (n : NodeId) (cmd : Command) (isActive : Bool) :
    Status × Queue :=
  match addCmdToQueue (queue.vdevList isActive cmd.vdev) (maxOnVdev isActive) cmd n with
  | none => (.deniedListFull, queue.disableFor cmd)
  | some list =>
    (if isActive then .active else .pending,
      (queue.setVdevList isActive cmd.vdev list).disableFor cmd)

def addScanCmd (queue : Queue) (n : NodeId) (cmd : Command) (isActive : Bool) :
    Status × Queue :=
  queue.addCmdToPdevQueue n cmd isActive

def addNonScanCmd (queue : Queue) (n : NodeId) (cmd : Command) (isActive : Bool) :
    Status × Queue :=
  match queue.addCmdToVdevQueue n cmd isActive with
  | (.deniedListFull, queue) => (.deniedListFull, queue)
  | (vdevStatus, queue) =>
    match queue.addCmdToPdevQueue n cmd isActive with
    | (.deniedListFull, queue) =>
      (.deniedListFull, (queue.removeCmdFromVdevQueue cmd.key isActive).2)
    | (_, queue) =>
      if isActive then
        (vdevStatus,
          { queue with
            vdevActiveCmd := Function.update queue.vdevActiveCmd cmd.vdev true
            blockingCmdActive := queue.blockingCmdActive || cmd.isBlocking })
      else
        (vdevStatus, queue)

def addCmd (queue : Queue) (n : NodeId) (cmd : Command) (isActive : Bool) :
    Status × Queue :=
  match queue.kind with
  | .scan => queue.addScanCmd n cmd isActive
  | .nonScan => queue.addNonScanCmd n cmd isActive

def removeScanCmd (queue : Queue) (key : Key) (isActive : Bool) : Removal × Queue :=
  queue.removeCmdFromPdevQueue key isActive

def removeNonScanCmd (queue : Queue) (key : Key) (isActive : Bool) : Removal × Queue :=
  match queue.removeCmdFromVdevQueue key isActive with
  | (.success _, queue) =>
    match queue.removeCmdFromPdevQueue key isActive, key.vdev with
    | (.success n, queue), some vdev =>
      if isActive then
        (.success n,
          { queue with
            blockingCmdActive :=
              queue.blockingCmdActive && !(queue.node n).isBlocking
            vdevActiveCmd := Function.update queue.vdevActiveCmd vdev false })
      else
        (.success n, queue)
    | (_, queue), _ => (.failure, queue)
  | failed => failed

def removeCmd (queue : Queue) (key : Key) (isActive : Bool) : Removal × Queue :=
  match queue.kind with
  | .scan => queue.removeScanCmd key isActive
  | .nonScan => queue.removeNonScanCmd key isActive

def freeNode (queue : Queue) (n : NodeId) : Queue :=
  let zeroed := queue.setNode n {}
  { zeroed with pool := zeroed.pool ++ [n] }

end Queue

end VendorModules.Ser
