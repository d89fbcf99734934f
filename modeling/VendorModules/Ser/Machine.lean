import VendorModules.Ser.Sections
import VendorModules.Lib.Transition

namespace VendorModules.Ser

open Lib

/-- `wlan_serialization_cb_reason`. -/
inductive CbReason
  | activateCmd
  | cancelCmd
  | releaseMemCmd
  | activeCmdTimeout
  deriving DecidableEq, Repr

structure Cancelling where
  call : CancelCall
  isActive : Bool
  hasPsoc : Bool
  walk : Walk
  deriving DecidableEq, Repr

/-- What a thread has still to do of one function: from one lock-delimited section or
callback to the next. -/
inductive Frame
  /-- `wlan_serialization_activate_cmd`, before the timer and the callback. -/
  | activate (n : NodeId)
  /-- After the callback, before the bits change. -/
  | activated (n : NodeId) (ok : Bool)
  /-- After that, before the bits are looked at. -/
  | settle (n : NodeId) (ok : Bool)
  /-- `wlan_serialization_dequeue_cmd`. -/
  | dequeue (cmd : Target)
  /-- `wlan_serialization_move_pending_to_active`. -/
  | movePending (vdev : VdevId) (blockingCmdRemoved : Bool)
  /-- A round of the non-scan move. -/
  | moveNext (lookup : Option VdevId)
  /-- The callback that releases the command's memory. -/
  | release (accepted : Accepted)
  /-- `wlan_ser_cancel_scan_cmd` or `wlan_ser_cancel_non_scan_cmd` on one list. -/
  | cancel (call : CancelCall) (isActive : Bool)
  /-- The callback for a cancelled command. -/
  | cancelNotify (accepted : Accepted) (cancelling : Cancelling)
  /-- After the callbacks for it. -/
  | cancelResume (cmd : Command) (cancelling : Cancelling)
  /-- A cancellation of active non-scan commands, after the lock is released. -/
  | cancelEnd
  /-- `wlan_serialization_generic_timer_cb`, for a copy of the command. -/
  | timeout (accepted : Accepted)
  /-- The callback for a timeout. -/
  | timeoutNotify (accepted : Accepted)
  deriving DecidableEq, Repr

/-- What the environment decides in a step: whether the timer starts, how the activation
callback returns, whether a timer is found, and the scans that are counted. -/
structure Choice where
  started : Bool := true
  ok : Bool := true
  timerStops : Bool := true
  lookups : Lookups := {}
  deriving DecidableEq, Repr

abbrev Outcome := List Frame × Queue × List (Nat × CbReason)

/-- What is counted includes the queue's own active scans, and the limit that is
configured is not above the size of its list. -/
def Lookups.Plausible (lookups : Lookups) (queue : Queue) : Prop :=
  queue.kind = .scan →
    queue.active.length ≤ lookups.activeScans ∧
      lookups.maxActiveScans ≤ maxActiveScanCmds

namespace Queue

def initial (kind : Kind) : Queue where
  kind := kind
  node := fun _ => {}
  active := []
  pending := []
  pool := List.range (match kind with
    | .scan => maxActiveScanCmds + maxPendingScanCmds
    | .nonScan => maxActiveCmds + maxPendingCmds)
  vdevActive := fun _ => []
  vdevPending := fun _ => []
  queueDisable := fun _ => false
  vdevActiveCmd := fun _ => false
  blockingCmdActive := false
  blockingCmdWaiting := 0

/-- The walk of a cancellation was left. There is no outcome when it went astray: what
the driver does then is not followed. -/
def leaveWalk (call : CancelCall) (isActive hasPsoc : Bool) :
    WalkEnd × Queue → Option Outcome
  | (.ended, queue) =>
    some (if queue.kind = .nonScan ∧ isActive = true then [.cancelEnd] else [], queue, [])
  | (.astray, _) => none
  | (.removed accepted walk, queue) =>
    some ([.cancelNotify accepted
      { call := call, isActive := isActive, hasPsoc := hasPsoc, walk := walk }], queue, [])

def moveRound (queue : Queue) (lookup : Option VdevId) : Outcome :=
  match queue.moveNonScan lookup with
  | (some n, queue) => ([.activate n, .moveNext lookup], queue, [])
  | (none, queue) => ([], queue, [])

/-- `wlan_ser_move_non_scan_pending_to_active` from its start. -/
def startMove (queue : Queue) (vdev : Option VdevId) (blockingCmdRemoved : Bool) :
    Outcome :=
  queue.moveRound (queue.vdevLookup vdev blockingCmdRemoved)

end Queue

namespace Frame

def run (queue : Queue) (choice : Choice) : Frame → Option Outcome
  | .activate n =>
    if choice.started then
      some ([.activated n choice.ok],
        queue.setNode n { queue.node n with timer := true },
        ((queue.node n).content.map fun accepted =>
          (accepted.ticket, .activateCmd)).toList)
    else
      some ([.activated n false], queue, [])
  | .activated n ok =>
    some ([.settle n ok],
      queue.setMarks n fun marks =>
        { marks with markedForActivation := false, isActive := true }, [])
  | .settle n ok =>
    some (if !ok || (queue.node n).marks.markedForRemoval then
        [.dequeue (.node n)]
      else if (queue.node n).marks.markedForCancel then
        [.cancel { cmd := some (.node n), cmdType := (queue.node n).key.cmdType } true]
      else [], queue, [])
  | .dequeue cmd =>
    match queue.dequeueLocked (cmd.resolve queue) with
    | (none, queue) => some ([], queue, [])
    | (some accepted, queue) =>
      some ([.movePending accepted.cmd.vdev accepted.cmd.isBlocking, .release accepted],
        queue, [])
  | .movePending vdev blockingCmdRemoved =>
    match queue.kind with
    | .scan =>
      match queue.moveScan choice.lookups with
      | (some n, queue) => some ([.activate n], queue, [])
      | (none, queue) => some ([], queue, [])
    | .nonScan => some (queue.startMove (some vdev) blockingCmdRemoved)
  | .moveNext lookup =>
    if lookup.isSome || queue.blockingCmdActive then some ([], queue, [])
    else some (queue.moveRound none)
  | .release accepted => some ([], queue, [(accepted.ticket, .releaseMemCmd)])
  | .cancel call isActive =>
    let hasPsoc := call.pdev || call.vdev.isSome ||
      call.cmd.any fun cmd => (cmd.resolve queue).vdev.isSome
    Queue.leaveWalk call isActive hasPsoc
      (queue.cancelWalk call isActive hasPsoc choice.timerStops none none
        (queue.pdevList isActive).length)
  | .cancelNotify accepted cancelling =>
    some ([.release accepted, .cancelResume accepted.cmd cancelling], queue,
      [(accepted.ticket, .cancelCmd)])
  | .cancelResume cmd cancelling =>
    let settled := queue.settleCancel cmd cancelling.isActive
    if queue.kind = .nonScan ∧ cancelling.call.vdev = none ∧
        cancelling.call.pdev = false then
      Queue.leaveWalk cancelling.call cancelling.isActive cancelling.hasPsoc
        (.ended, settled)
    else
      Queue.leaveWalk cancelling.call cancelling.isActive cancelling.hasPsoc
        (settled.cancelWalk cancelling.call cancelling.isActive cancelling.hasPsoc
          choice.timerStops cancelling.walk.here cancelling.walk.passed
          cancelling.walk.left)
  | .cancelEnd =>
    if queue.active.isEmpty && !queue.anyVdevCmdActive then
      some (queue.startMove none false)
    else some ([], queue, [])
  | .timeout accepted =>
    some (if queue.isCmdPresent accepted.cmd.key true then [.timeoutNotify accepted] else [],
      queue, [])
  | .timeoutNotify accepted =>
    some ([.dequeue (.key accepted.cmd.key)], queue,
      [(accepted.ticket, .activeCmdTimeout)])

def counts : Frame → Bool
  | .movePending _ _ => true
  | _ => false

def activating? : Frame → Option NodeId
  | .activate n => some n
  | .activated n _ => some n
  | _ => none

def window? : Frame → Option VdevId
  | .cancelNotify accepted cancelling =>
    if cancelling.isActive then some accepted.cmd.vdev else none
  | .cancelResume cmd cancelling => if cancelling.isActive then some cmd.vdev else none
  | _ => none

def holds? : Frame → Option Nat
  | .release accepted => some accepted.ticket
  | .cancelNotify accepted _ => some accepted.ticket
  | _ => none

end Frame

/-- A pdev's queue of one kind with the threads that work on it, the callbacks made so far
(the last one first), and the number of commands accepted. -/
structure Machine where
  queue : Queue
  threads : List (List Frame)
  log : List (Nat × CbReason)
  tickets : Nat

inductive Move
  /-- `wlan_serialization_request`. -/
  | request (lookups : Lookups) (cmd : Option Command)
  /-- `wlan_serialization_remove_cmd`. -/
  | remove (key : Key)
  /-- A cancellation or purge, list by list. -/
  | cancel (calls : List (CancelCall × Bool))
  /-- The timer of an active command fires. -/
  | fire (n : NodeId)
  /-- `wlan_ser_vdev_queue_disable`. -/
  | disable (vdev : VdevId)
  /-- A thread goes on. -/
  | run (i : Nat) (choice : Choice)
  deriving DecidableEq, Repr

namespace Machine

def frames (machine : Machine) : List Frame := machine.threads.flatten

def spawn (machine : Machine) (thread : List Frame) : Machine :=
  { machine with threads := machine.threads ++ [thread] }

def request (machine : Machine) (lookups : Lookups) (cmd? : Option Command) :
    Status × Machine :=
  match machine.queue.enqueueCmd lookups machine.tickets cmd? with
  | (status, taken, queue) =>
    let accepted := status = .active ∨ status = .pending
    (status,
      { queue := queue
        threads := machine.threads ++ [(taken.map Frame.activate).toList]
        log := machine.log
        tickets := if accepted then machine.tickets + 1 else machine.tickets })

def run (machine : Machine) (i : Nat) (choice : Choice) : Option Machine :=
  match machine.threads[i]? with
  | some (frame :: rest) =>
    (frame.run machine.queue choice).map fun (frames, queue, callbacks) =>
      { machine with
        queue := queue
        threads := machine.threads.set i (frames ++ rest)
        log := callbacks ++ machine.log }
  | _ => none

def step (machine : Machine) : Move → Option Machine
  | .request lookups cmd? => some (machine.request lookups cmd?).2
  | .remove key => some (machine.spawn [.dequeue (.key key)])
  | .cancel calls => some (machine.spawn (calls.map fun (call, isActive) =>
    .cancel call isActive))
  | .fire n =>
    match (machine.queue.node n).content with
    | some accepted =>
      if (machine.queue.node n).timer then some (machine.spawn [.timeout accepted])
      else none
    | none => none
  | .disable vdev =>
    some { machine with
      queue := { machine.queue with
        queueDisable := Function.update machine.queue.queueDisable vdev true } }
  | .run i choice => machine.run i choice

def head? (machine : Machine) (i : Nat) : Option Frame :=
  machine.threads[i]?.bind List.head?

/-- What the callers promise of a move: a request reaches the queue of its command's kind
and of its vdev's pdev. -/
def Promised (vdevs : Finset VdevId) (machine : Machine) : Move → Prop
  | .request _ cmd? => ∀ cmd ∈ cmd?, cmd.cmdType.kind = machine.queue.kind ∧ cmd.vdev ∈ vdevs
  | .run i choice => ∀ frame ∈ machine.head? i, frame.counts = true →
      choice.lookups.Plausible machine.queue
  | _ => True

instance (vdevs : Finset VdevId) (machine : Machine) (move : Move) :
    Decidable (machine.Promised vdevs move) := by
  cases move <;> unfold Promised <;> unfold Lookups.Plausible <;> infer_instance

def Step (vdevs : Finset VdevId) : Machine → Machine → Prop :=
  Lib.StepOf step fun machine move => machine.Promised vdevs move

def initial (kind : Kind) : Machine where
  queue := .initial kind
  threads := []
  log := []
  tickets := 0

def Reachable (vdevs : Finset VdevId) (kind : Kind) : Machine → Prop :=
  Lib.Reachable (· = initial kind) (Step vdevs)

def sampleVdevs : Finset VdevId := {0, 1}

def sampleCmd (vdev : VdevId) (cmdId : UInt32) (isBlocking : Bool) : Command where
  cmdType := .vdevConnect
  cmdId := cmdId
  cmdCb := true
  isHighPriority := false
  isBlocking := isBlocking
  queueDisable := false
  vdev := vdev

end Machine

end VendorModules.Ser
