import VendorModules.Ser.Queue

namespace VendorModules.Ser

/-- What a call looks up before it takes the lock, and what the scan admission counts
over all pdevs. -/
structure Lookups where
  pdev : Bool := true
  serPdevObj : Bool := true
  serVdevObj : Bool := true
  activeScans : Nat := 0
  maxActiveScans : Nat := 0
  deriving DecidableEq, Repr

/-- `wlan_serialization_is_active_scan_cmd_allowed`. -/
def Lookups.isActiveScanCmdAllowed (lookups : Lookups) : Bool :=
  decide (lookups.activeScans < lookups.maxActiveScans)

def Lookups.Receives (lookups : Lookups) (cmd : Command) : Prop :=
  cmd.cmdCb = true ∧ lookups.pdev = true ∧ lookups.serPdevObj = true

namespace Queue

/-- `wlan_serialization_is_active_non_scan_cmd_allowed`, which counts the blocking command
that has to wait. -/
def isActiveNonScanCmdAllowed (queue : Queue) (cmd : Command) : Bool × Queue :=
  if cmd.isBlocking then
    if queue.anyVdevCmdActive then
      (false, { queue with blockingCmdWaiting := queue.blockingCmdWaiting + 1 })
    else
      (true, queue)
  else if queue.blockingCmdActive || queue.blockingCmdWaiting.toUInt8 != 0 then
    (false, queue)
  else
    (!queue.vdevActiveCmd cmd.vdev, queue)

/-- `wlan_serialization_is_active_cmd_allowed`. -/
def isActiveCmdAllowed (queue : Queue) (lookups : Lookups) (cmd : Command) :
    Bool × Queue :=
  match queue.kind with
  | .scan => (lookups.isActiveScanCmdAllowed && queue.pending.isEmpty, queue)
  | .nonScan =>
    let (allowed, queue) := queue.isActiveNonScanCmdAllowed cmd
    (allowed && (queue.vdevPending cmd.vdev).isEmpty, queue)

def takeNode (queue : Queue) (n : NodeId) (pool : List NodeId) (accepted : Accepted) :
    Queue :=
  { queue with pool := pool }.setNode n { queue.node n with content := some accepted }

/-- What `wlan_serialization_enqueue_cmd` does under the lock. A command that goes to the
active list comes with its node, to be activated once the lock is released. -/
def enqueueLocked (queue : Queue) (lookups : Lookups) (ticket : Nat) (cmd : Command) :
    Status × Option NodeId × Queue :=
  if queue.kind = .nonScan ∧ lookups.serVdevObj = false then
    (.deniedUnspecified, none, queue)
  else if queue.kind = .nonScan ∧ queue.queueDisable cmd.vdev = true then
    (.queueDisabled, none, queue)
  else
    let (isActive, queue) := queue.isActiveCmdAllowed lookups cmd
    if lookups.serVdevObj && queue.isCmdPresent cmd.key isActive then
      (.deniedUnspecified, none, queue)
    else
      match queue.pool with
      | [] => (.deniedListFull, none, queue)
      | n :: pool =>
        match (queue.takeNode n pool { ticket := ticket, cmd := cmd }).addCmd n cmd
            isActive with
        | (.active, queue) =>
          (.active, some n,
            queue.setMarks n fun marks => { marks with markedForActivation := true })
        | (.pending, queue) => (.pending, none, queue)
        | (status, queue) => (status, none, queue.freeNode n)

/-- `wlan_serialization_enqueue_cmd` for a request. -/
def enqueueCmd (queue : Queue) (lookups : Lookups) (ticket : Nat) (cmd? : Option Command) :
    Status × Option NodeId × Queue :=
  match cmd? with
  | none => (.deniedUnspecified, none, queue)
  | some cmd =>
    if !cmd.cmdCb || !lookups.pdev || !lookups.serPdevObj then
      (.deniedUnspecified, none, queue)
    else
      queue.enqueueLocked lookups ticket cmd

/-- What `wlan_serialization_dequeue_cmd` does under the lock: the command it took off
the active list, if any. -/
def dequeueLocked (queue : Queue) (key : Key) : Option Accepted × Queue :=
  match queue.removeCmd key true with
  | (.success n, queue) => ((queue.node n).content, queue.freeNode n)
  | (_, queue) => (none, queue)

/-- Moves a pending command to the active list. When that fails the node goes to the pool
as it is. -/
def promote (queue : Queue) (n : NodeId) : Option NodeId × Queue :=
  match queue.removeCmd (queue.node n).key false with
  | (.success n, queue) =>
    match (queue.node n).content with
    | none => (none, { queue with pool := queue.pool ++ [n] })
    | some accepted =>
      match queue.addCmd n accepted.cmd true with
      | (.active, queue) =>
        let marked :=
          queue.setMarks n fun marks => { marks with markedForActivation := true }
        (some n,
          if queue.kind = .nonScan ∧ accepted.cmd.isBlocking = true then
            { marked with blockingCmdWaiting := marked.blockingCmdWaiting - 1 }
          else marked)
      | (_, queue) => (none, { queue with pool := queue.pool ++ [n] })
  | (_, queue) => (none, queue)

def markNext (queue : Queue) : List NodeId → Queue
  | [] => queue
  | next :: _ => queue.setMarks next fun marks => { marks with markedForMovement := true }

/-- The walk over the pdev's pending list: the first command whose vdev has none active, unless
a blocking one that cannot run comes before it. It leaves a mark behind the chosen one. -/
def nextOfPdev (queue : Queue) : List NodeId → Option NodeId × Queue
  | [] => (none, queue)
  | n :: rest =>
    if (queue.node n).isBlocking && queue.anyVdevCmdActive then
      (none, queue)
    else
      let marked := queue.markNext rest
      if (queue.node n).vdev?.any queue.vdevActiveCmd then
        (marked.setMarks n fun marks => { marks with markedForMovement := false })
          |>.nextOfPdev rest
      else
        (some n, marked)

/-- The head of the vdev's pending list, unless the vdev has a command active or the
pdev walk has marked that head. -/
def nextOfVdev (queue : Queue) (vdev : VdevId) : Option NodeId :=
  match queue.vdevPending vdev with
  | [] => none
  | n :: _ =>
    if (queue.node n).vdev?.any queue.vdevActiveCmd then none
    else if (queue.node n).marks.markedForMovement then none
    else some n

/-- One round of `wlan_ser_move_non_scan_pending_to_active` under the lock: the command
that is to be activated, if any. -/
def moveNonScan (queue : Queue) (lookup : Option VdevId) : Option NodeId × Queue :=
  match lookup with
  | some vdev =>
    match queue.nextOfVdev vdev with
    | none => (none, queue)
    | some n => queue.promote n
  | none =>
    match queue.nextOfPdev queue.pending with
    | (none, queue) => (none, queue)
    | (some n, queue) => queue.promote n

def vdevLookup (queue : Queue) (vdev : Option VdevId) (blockingCmdRemoved : Bool) :
    Option VdevId :=
  if !blockingCmdRemoved && queue.blockingCmdWaiting == 0 then vdev else none

/-- `wlan_ser_move_scan_pending_to_active` under the lock. -/
def moveScan (queue : Queue) (lookups : Lookups) : Option NodeId × Queue :=
  match queue.pending with
  | [] => (none, queue)
  | n :: _ => if lookups.isActiveScanCmdAllowed then queue.promote n else (none, queue)

end Queue

inductive Target
  | key (key : Key)
  | node (n : NodeId)
  deriving DecidableEq, Repr

def Target.resolve (queue : Queue) : Target → Key
  | .key wanted => wanted
  | .node n => (queue.node n).key

structure CancelCall where
  cmd : Option Target := none
  pdev : Bool := false
  vdev : Option VdevId := none
  cmdType : CmdType
  nonBlocking : Bool := false
  deriving DecidableEq, Repr

/-- Where a cancellation is in its list: the node it looks at, the last one it passed
over, and how many are left. -/
structure Walk where
  here : Option NodeId
  passed : Option NodeId
  left : Nat
  deriving DecidableEq, Repr

inductive WalkEnd
  | ended
  | removed (accepted : Accepted) (walk : Walk)
  /-- The walk went on from a node that is not on the list. -/
  | astray
  deriving DecidableEq, Repr

namespace Queue

/-- The conditions under which `wlan_ser_cancel_scan_cmd` and
`wlan_ser_cancel_non_scan_cmd` pass over a command. -/
def isSkipped (queue : Queue) (call : CancelCall) (n : NodeId) : Bool :=
  let node := queue.node n
  let vdevDiffers := call.vdev.any fun vdev => node.vdev? != some vdev
  match queue.kind with
  | .scan =>
    (call.cmd.any fun target =>
      node.key.cmdId != (target.resolve queue).cmdId ||
        node.key.cmdType != (target.resolve queue).cmdType) ||
      vdevDiffers
  | .nonScan =>
    (call.cmd.any fun target => node.key != target.resolve queue) || vdevDiffers ||
      (call.cmdType != .nonscan && call.vdev.isSome && node.key.cmdType != call.cmdType) ||
        (call.nonBlocking && node.isBlocking)

/-- `wlan_serialization_get_cmd_from_queue`: the outer option is a walk from a node that
is not on the list. -/
def nextInList (list : List NodeId) : Option NodeId → Option (Option NodeId)
  | none => some list.head?
  | some n => if n ∈ list then some (list.dropWhile (· ≠ n)).tail.head? else none

def unlink (queue : Queue) (n : NodeId) (isActive : Bool) : Queue :=
  let unlisted := queue.setPdevList isActive ((queue.pdevList isActive).erase n)
  match queue.kind, (queue.node n).vdev? with
  | .nonScan, some vdev =>
    (unlisted.setVdevList isActive vdev ((queue.vdevList isActive vdev).erase n)).freeNode n
  | _, _ => unlisted.freeNode n

/-- The loop of a cancellation up to the command it removes. `hasPsoc` says that the call
came with an object that leads to the psoc, `timerStops` that the timer of an active
command is found. -/
def cancelWalk (queue : Queue) (call : CancelCall) (isActive hasPsoc timerStops : Bool)
    (here passed : Option NodeId) : Nat → WalkEnd × Queue
  | 0 => (.ended, queue)
  | left + 1 =>
    if (queue.pdevList isActive).isEmpty then
      (.ended, queue)
    else
      match nextInList (queue.pdevList isActive) here with
      | none => (.astray, queue)
      | some none => (.ended, queue)
      | some (some n) =>
        if queue.isSkipped call n then
          queue.cancelWalk call isActive hasPsoc timerStops (some n) (some n) left
        else if isActive && !hasPsoc then
          (.ended, queue)
        else if isActive && (queue.node n).marks.markedForActivation then
          (queue.setMarks n fun marks => { marks with markedForCancel := true })
            |>.cancelWalk call isActive hasPsoc timerStops (some n) passed left
        else if isActive && !timerStops then
          (.ended, queue)
        else
          match (queue.node n).content with
          | none => (.ended, queue.unlink n isActive)
          | some accepted =>
            (.removed accepted { here := passed, passed := passed, left := left },
              queue.unlink n isActive)

def settleCancel (queue : Queue) (cmd : Command) (isActive : Bool) : Queue :=
  match queue.kind with
  | .scan => queue
  | .nonScan =>
    if isActive then
      { queue with
        blockingCmdActive := queue.blockingCmdActive && !cmd.isBlocking
        vdevActiveCmd := Function.update queue.vdevActiveCmd cmd.vdev false }
    else if cmd.isBlocking then
      { queue with blockingCmdWaiting := queue.blockingCmdWaiting - 1 }
    else queue

end Queue

end VendorModules.Ser
