import VendorModules.Ufcs.Sender
import VendorModules.UfcsPolicy.Engine

/-!
# The UFCS worker, its interrupts and the senders

The worker runs the receive work, the event work and the send work one at a time, in the order in
which they were queued; queueing a work that is queued already does nothing. A thread that sends
holds the lock of the sender and waits until the send work, an acknowledgement or a failure
completes its message. The two timers of the sender run their callbacks beside all of this.

A step is what a party does between two places where another one can come in. What the worker
does once it decides to answer the waiting thread (stop the timer, set the status, complete) is
one step, which waits for a callback of the timer that is under way.
-/

namespace VendorModules.UfcsWorker

open Ufcs
open UfcsPolicy (Completion)

abbrev ErrFlag := BitVec 32

def hwErrHardReset : Nat := 4

def recvErrSentCmp : Nat := 5

def recvErrTransFail : Nat := 6

def recvErrAckTimeout : Nat := 7

def recvErrDataReady : Nat := 8

def commErrBusConflict : Nat := 18

/-- `kfifo_alloc` rounds the 20 bytes for five flags up to a power of two. -/
def errFlagFifoLen : Nat := 32 / 4

def msgNumberCountMax : Nat := 15

structure WorkerConfig extends Config where
  replyAck : Bool
  deriving Repr, DecidableEq

structure Flag where
  bits : ErrFlag
  stamp : Nat
  deriving DecidableEq

def Flag.has (flag : Flag) (bit : Nat) : Bool := flag.bits.getLsbD bit

structure Letter where
  serial : Nat
  msg : Msg

inductive EventType
  | recvPing
  | recvAck
  | recvNck
  | recvAccept
  | recvSoftReset
  | recvPowerReady
  | recvGetSinkInfo
  | recvGetDeviceInfo
  | recvGetErrorInfo
  | recvDetectCableInfo
  | recvStartCableDetect
  | recvEndCableDetect
  | recvExitUfcsMode
  | recvOutputCap
  | recvRequest
  | recvSourceInfo
  | recvSinkInfo
  | recvCableInfo
  | recvDeviceInfo
  | recvErrorInfo
  | recvConfigWd
  | recvRefuse
  | recvVerifyRequest
  | recvVerifyResponse
  | recvPowerChange
  | recvTestRequest
  | oplusRecvEmarkInfoMsg
  | oplusRecvPowerInfoMsg
  | sendRefuse
  deriving DecidableEq

def processCtrlMsgEvent (command : U8) : Option EventType :=
  if command = 0x00#8 then some .recvPing
  else if command = 0x01#8 then some .recvAck
  else if command = 0x02#8 then some .recvNck
  else if command = 0x03#8 then some .recvAccept
  else if command = 0x04#8 then some .recvSoftReset
  else if command = 0x05#8 then some .recvPowerReady
  else if command = 0x08#8 then some .recvGetSinkInfo
  else if command = 0x0a#8 then some .recvGetDeviceInfo
  else if command = 0x0b#8 then some .recvGetErrorInfo
  else if command = 0x0c#8 then some .recvDetectCableInfo
  else if command = 0x0d#8 then some .recvStartCableDetect
  else if command = 0x0e#8 then some .recvEndCableDetect
  else if command = 0x0f#8 then some .recvExitUfcsMode
  else none

def processDataMsgEvent (command : U8) : Option EventType :=
  (DataMsgType.ofCommand command).map fun
    | .outputCapabilities => .recvOutputCap
    | .request => .recvRequest
    | .sourceInfo => .recvSourceInfo
    | .sinkInfo => .recvSinkInfo
    | .cableInfo => .recvCableInfo
    | .deviceInfo => .recvDeviceInfo
    | .errorInfo => .recvErrorInfo
    | .configWatchdog => .recvConfigWd
    | .refuse => .recvRefuse
    | .verifyRequest => .recvVerifyRequest
    | .verifyResponse => .recvVerifyResponse
    | .powerChange => .recvPowerChange
    | .testRequest => .recvTestRequest

def processVendorMsgEvent (type : U8) : Option EventType :=
  if type = 0x02#8 then some .oplusRecvEmarkInfoMsg
  else if type = 0x04#8 then some .oplusRecvPowerInfoMsg
  else none

def processEvent (msg : Msg) : EventType :=
  match msg.body with
  | .ctrl command => (processCtrlMsgEvent command).getD .sendRefuse
  | .data command _ _ => (processDataMsgEvent command).getD .sendRefuse
  | .vendor _ _ data => (processVendorMsgEvent (data 0)).getD .sendRefuse

inductive Reason
  | crc
  | allocation
  deriving DecidableEq

inductive Fate
  | event (type : EventType)
  | freed (reason : Reason)
  deriving DecidableEq

inductive Work
  | recv
  | event
  | send
  deriving DecidableEq

inductive Stage
  | recvGet
  | recvCheck (flag : Flag)
  | recvLooked (flag : Flag) (waitAck : Bool)
  | recvRead (flag : Flag)
  | recvHandle (flag : Flag) (letter : Letter)
  | recvLock (letter : Letter)
  | recvRestart (letter : Letter)
  | recvStore (letter : Letter)
  | recvDone
  | eventGet
  | eventReply (letter : Letter) (nck : Bool)
  | eventReplying (letter : Letter) (nck : Bool)
  | eventAlloc (letter : Letter)
  | sendCheck
  | sendSignal
  | sendAttempt (ackNck : Bool)
  | sendWritten (ackNck : Bool)
  | sendArm

inductive Party
  | caller (thread : Nat)
  | worker
  deriving DecidableEq

inductive TurnPhase
  | locked
  | prepared
  | waiting
  | woken
  | cancelled
  | concluded (rc : Except SendError Unit)
  | pended (rc : Except SendError Unit)

structure Turn where
  party : Party
  number : Nat
  msg : Msg
  phase : TurnPhase

inductive Lock
  | free
  | recvWork
  | sender (turn : Turn)

def Lock.isFree : Lock → Bool
  | .free => true
  | _ => false

/-- `firing` is a callback between setting the status and queueing the work. -/
structure AckTimer where
  armed : Bool := false
  firing : Bool := false
  deriving DecidableEq

inductive DelayStage
  | checked
  | started
  deriving DecidableEq

structure DelayTimer where
  armed : Bool := false
  firing : Option DelayStage := none
  deriving DecidableEq

/-- What happens on the wire: a frame is written, in whose turn and whether no flag was waiting
then, or an acknowledgement or the flag for a completed transmission is handled. -/
inductive WireEvent
  | wrote (turn : Nat) (quiet : Bool)
  | answered (stamp : Nat)
  deriving DecidableEq

def WireEvent.isWrote : WireEvent → Bool
  | .wrote .. => true
  | .answered _ => false

/-- `received` are the messages for the event work and `fates` what became of them, both in
order; `wire` has the latest event first. -/
structure State where
  fifo : List Flag := []
  queue : List Work := []
  running : Option Stage := none
  recvMsg : Option Letter := none
  exitUfcsAckReceived : Bool := false
  lock : Lock := .free
  msg : Option Msg := none
  status : SendStatus := .sendStart
  msgNumberCounter : Nat := 0
  msgRetryCount : Nat := 0
  ack : Completion := {}
  ackTimer : AckTimer := {}
  delayTimer : DelayTimer := {}
  turns : Nat := 0
  wire : List WireEvent := []
  serials : Nat := 0
  received : List Letter := []
  fates : List (Letter × Fate) := []

def isAckMsg : Body → Bool
  | .ctrl command => command = 0x01#8
  | _ => false

structure Oracle where
  handshake : Bool := false
  buf : Option (List U8) := none
  allocated : Bool := true
  wrote : Bool := true

namespace State

variable (s : State)

def writes : Nat := s.wire.countP WireEvent.isWrote

def goTo (stage : Stage) : State := { s with running := some stage }

def finish : State := { s with running := none }

def queueWork (work : Work) : State :=
  if work ∈ s.queue then s else { s with queue := s.queue ++ [work] }

@[simp] theorem queueWork_running {s : State} (work : Work) : (s.queueWork work).running = s.running := by
  unfold queueWork
  split_ifs <;> rfl

theorem queueWork_kept {s : State} (work : Work) :
    (s.queueWork work).wire = s.wire ∧ (s.queueWork work).fifo = s.fifo := by
  unfold queueWork
  split_ifs <;> exact ⟨rfl, rfl⟩

def complete (status : SendStatus) : State :=
  { s with status := status, ack := s.ack.complete }

/-- `hrtimer_cancel` waits for a callback that is under way. -/
def stopAckReceiveTimer : Option State :=
  if s.ackTimer.firing then none
  else some { s with ackTimer := { s.ackTimer with armed := false } }

theorem stopAckReceiveTimer_eq {s s' : State} (stops : s.stopAckReceiveTimer = some s') :
    s.ackTimer.firing = false ∧ s' = { s with ackTimer := { s.ackTimer with armed := false } } := by
  unfold stopAckReceiveTimer at stops
  split_ifs at stops with firing
  exact ⟨Bool.not_eq_true _ ▸ firing, (Option.some.inj stops).symm⟩

def answer (stamp : Nat) : State := { s with wire := .answered stamp :: s.wire }

def settle (letter : Letter) (fate : Fate) : State :=
  { s with fates := s.fates ++ [(letter, fate)] }

def isExitUfcsMode : Bool :=
  match s.msg with
  | some { body := .ctrl command, .. } => command = 0x0f#8
  | _ => false

/-! ## The receive work -/

def recvCheck (flag : Flag) (handshake : Bool) : Option State :=
  if handshake || s.exitUfcsAckReceived then some (s.goTo .recvDone)
  else if flag.has hwErrHardReset then some ((s.complete .retryOver).goTo .recvDone)
  else if flag.has commErrBusConflict then
    s.stopAckReceiveTimer.map fun s => (s.complete .retryOver).goTo .recvDone
  else if flag.has recvErrSentCmp then
    some (s.goTo (.recvLooked flag (s.status = .waitAck)))
  else some (s.goTo (if flag.has recvErrDataReady then .recvRead flag else .recvDone))

/-- The flag says that a frame was sent; `waitAck` is what the worker saw of the status. -/
def recvLooked (flag : Flag) (waitAck : Bool) : Option State :=
  let next := if flag.has recvErrDataReady then .recvRead flag else .recvDone
  if flag.has recvErrTransFail then
    if waitAck then s.stopAckReceiveTimer.map fun s => (s.complete .retryOver).goTo next
    else some (s.goTo .recvDone)
  else if flag.has recvErrAckTimeout then some (s.goTo (.recvRead flag))
  else if waitAck then
    s.stopAckReceiveTimer.map fun s =>
      let s := { s with exitUfcsAckReceived := s.exitUfcsAckReceived || s.isExitUfcsMode }
      ((s.answer flag.stamp).complete .sendOk).goTo next
  else some ((s.answer flag.stamp).goTo next)

def recvRead (config : Config) (flag : Flag) (buf : Option (List U8)) (allocated : Bool) :
    State :=
  match if allocated then buf.bind (unpackMsg config) else none with
  | none => s.goTo .recvDone
  | some msg => { s with serials := s.serials + 1 }.goTo (.recvHandle flag ⟨s.serials, msg⟩)

def recvAckNckMsg (flag : Flag) (letter : Letter) : Option State :=
  s.stopAckReceiveTimer.map fun s =>
    let s := if isAckMsg letter.msg.body then s.answer flag.stamp else s
    if s.status = .waitAck then
      if isAckMsg letter.msg.body then (s.complete .sendOk).goTo .recvDone
      else ({ s with status := .nck }.queueWork .send).goTo .recvDone
    else { s with received := s.received ++ [letter] }.goTo (.recvStore letter)

def recvHandle (config : WorkerConfig) (flag : Flag) (letter : Letter) : Option State :=
  if letter.msg.body.isAckNckMsg then s.recvAckNckMsg flag letter
  else
    let s := { s with received := s.received ++ [letter] }
    some (s.goTo (if !config.replyAck && s.lock.isFree then .recvLock letter
      else .recvStore letter))

def recvLock (letter : Letter) : Option State :=
  if s.lock.isFree then
    some ({ s with lock := .recvWork, status := .sendPending }.goTo (.recvRestart letter))
  else none

def recvRestart (letter : Letter) : Option State :=
  if s.delayTimer.firing.isSome then none
  else
    some ({ s with lock := .free, delayTimer := { s.delayTimer with armed := true } }.goTo
      (.recvStore letter))

def recvStore (letter : Letter) : State :=
  ({ s with recvMsg := some letter }.queueWork .event).goTo .recvDone

def recvGet : State :=
  match s.fifo with
  | [] => s.finish
  | flag :: fifo => { s with fifo := fifo }.goTo (.recvCheck flag)

/-! ## The event work -/

def eventGet (config : WorkerConfig) : State :=
  match s.recvMsg with
  | none => s.finish
  | some letter =>
    if !letter.msg.body.isAckNckMsg && config.checkCrc && letter.msg.crcGood = 0 then
      s.goTo (.eventReply letter true)
    else if config.replyAck then s.goTo (.eventReply letter false)
    else s.goTo (.eventAlloc letter)

def replied (letter : Letter) (nck : Bool) : State :=
  if nck then (s.settle letter (.freed .crc)).finish else s.goTo (.eventAlloc letter)

def eventReply (letter : Letter) (nck : Bool) (allocated : Bool) : Option State :=
  if !allocated then some (s.replied letter nck)
  else if s.lock.isFree then
    let msg : Msg :=
      { version := 1
        index := BitVec.ofNat 8 s.msgNumberCounter
        addr := 1
        body := .ctrl (if nck then 0x02#8 else 0x01#8) }
    some ({ s with
        lock := .sender { party := .worker, number := s.turns, msg := msg, phase := .locked }
        turns := s.turns + 1 }.goTo (.eventReplying letter nck))
  else none

def eventAlloc (letter : Letter) (allocated : Bool) : State :=
  if allocated then (s.settle letter (.event (processEvent letter.msg))).finish
  else (s.settle letter (.freed .allocation)).finish

/-! ## The send work -/

def retryMax (config : Config) : Nat := if config.msgResend then msgRetryCountMax else 1

def sendCheck : State :=
  match s.msg with
  | none => s.finish
  | some msg =>
    if msg.body.isAckNckMsg then s.goTo (.sendAttempt true)
    else
      match s.status with
      | .ackTimeout | .nck =>
        { s with msgRetryCount := s.msgRetryCount + 1 }.goTo (.sendAttempt false)
      | .retryOver | .sendOk | .sendFail => s.goTo .sendSignal
      | .sendPending | .waitAck => s.finish
      | .sendStart => s.goTo (.sendAttempt false)

def sendSignal : State := { s with ack := s.ack.complete }.finish

def turnNumber : Nat :=
  match s.lock with
  | .sender turn => turn.number
  | _ => 0

/-- Reads `sender->msg` once more, which has to be there still. -/
def sendAttempt (config : Config) (ackNck : Bool) (wrote : Bool) : Option State :=
  if retryMax config ≤ s.msgRetryCount then
    s.stopAckReceiveTimer.map fun s => (s.complete .retryOver).finish
  else
    s.msg.map fun msg =>
      match packMsg config msg msgSizeMax with
      | .error _ => (s.complete .sendFail).finish
      | .ok (_, msg) =>
        let s := { s with msg := some msg }
        if wrote then
          { s with wire := .wrote s.turnNumber s.fifo.isEmpty :: s.wire }.goTo
            (.sendWritten ackNck)
        else (s.complete .sendFail).finish

def sendWritten (ackNck : Bool) : State :=
  if ackNck then (s.complete .sendOk).finish else { s with status := .waitAck }.goTo .sendArm

def sendArm : State := { s with ackTimer := { s.ackTimer with armed := true } }.finish

/-! ## Sending -/

def callerLocks (thread : Nat) (msg : Msg) : Option State :=
  if s.lock.isFree && !msg.body.isAckNckMsg then
    some { s with
      lock := .sender
        { party := .caller thread, number := s.turns, msg := msg, phase := .locked }
      turns := s.turns + 1 }
  else none

def enter (turn : Turn) (phase : TurnPhase) : State :=
  { s with lock := .sender { turn with phase := phase } }

def release (turn : Turn) : State :=
  let s := { s with lock := .free }
  match turn.party, s.running with
  | .worker, some (.eventReplying letter nck) => s.replied letter nck
  | _, _ => s

def sendRuns : Bool :=
  match s.running with
  | some .sendCheck | some .sendSignal | some (.sendAttempt _) | some (.sendWritten _)
  | some .sendArm => true
  | _ => false

/-- `__ufcs_send_msg`; `kthread_cancel_work_sync` waits for a run of the send work. -/
def sendMsg (turn : Turn) : Option State :=
  match turn.phase with
  | .locked =>
    some ({ s with msg := some turn.msg, msgRetryCount := 0, ack := {} }.enter turn .prepared)
  | .prepared => some ((s.queueWork .send).enter turn .waiting)
  | .waiting =>
    if s.ack.isDone then some ({ s with ack := s.ack.take }.enter turn .woken) else none
  | .woken =>
    if s.sendRuns then none
    else some ({ s with queue := s.queue.erase .send }.enter turn .cancelled)
  | .cancelled => some ({ s with msg := none }.enter turn (.concluded s.status.result))
  | .concluded rc => some ({ s with status := .sendPending }.enter turn (.pended rc))
  | .pended _ =>
    some ({ s with
      delayTimer := { s.delayTimer with armed := true }
      msgNumberCounter :=
        if msgNumberCountMax < s.msgNumberCounter + 1 then 0 else s.msgNumberCounter + 1
      }.release turn)

/-! ## The timers and the rest of the driver -/

def ackReceiveTimeout : Option State :=
  if s.ackTimer.armed && !s.ackTimer.firing then
    some { s with ackTimer := { armed := false, firing := true }, status := .ackTimeout }
  else none

def ackReceiveQueue : Option State :=
  if s.ackTimer.firing then
    some ({ s with ackTimer := { s.ackTimer with firing := false } }.queueWork .send)
  else none

def msgTransDelayTimeout : Option State :=
  if s.delayTimer.armed && s.delayTimer.firing.isNone then
    some { s with
      delayTimer :=
        { armed := false, firing := if s.status = .sendPending then some .checked else none } }
  else none

def msgTransDelayGo : Option State :=
  match s.delayTimer.firing with
  | none => none
  | some .checked =>
    some { s with
      delayTimer := { s.delayTimer with firing := some .started }
      status := .sendStart }
  | some .started =>
    let s := { s with delayTimer := { s.delayTimer with firing := none } }
    some (if s.msg.isSome then s.queueWork .send else s)

def setErrorFlag (bits : ErrFlag) : State :=
  if s.fifo.length < errFlagFifoLen then
    { s with fifo := s.fifo ++ [{ bits := bits, stamp := s.writes }] }
  else s

def eventReset : State :=
  { s with recvMsg := none, status := .sendStart, msgNumberCounter := 0, msgRetryCount := 0 }

def exitSmWork : State :=
  { s with msgNumberCounter := 0, status := .retryOver, ack := s.ack.completeAll }

def start : Option State :=
  match s.running, s.queue with
  | none, work :: queue =>
    let s := { s with queue := queue }
    some (s.goTo (match work with
      | .recv => .recvGet
      | .event => .eventGet
      | .send => .sendCheck))
  | _, _ => none

def workStep (config : WorkerConfig) (oracle : Oracle) : Option State :=
  match s.running with
  | none => s.start
  | some .recvGet => some s.recvGet
  | some (.recvCheck flag) => s.recvCheck flag oracle.handshake
  | some (.recvLooked flag waitAck) => s.recvLooked flag waitAck
  | some (.recvRead flag) =>
    some (s.recvRead config.toConfig flag oracle.buf oracle.allocated)
  | some (.recvHandle flag letter) => s.recvHandle config flag letter
  | some (.recvLock letter) => s.recvLock letter
  | some (.recvRestart letter) => s.recvRestart letter
  | some (.recvStore letter) => some (s.recvStore letter)
  | some .recvDone => some (if s.fifo.isEmpty then s.finish else s.goTo .recvGet)
  | some .eventGet => some (s.eventGet config)
  | some (.eventReply letter nck) => s.eventReply letter nck oracle.allocated
  | some (.eventReplying ..) => none
  | some (.eventAlloc letter) => some (s.eventAlloc letter oracle.allocated)
  | some .sendCheck => some s.sendCheck
  | some .sendSignal => some s.sendSignal
  | some (.sendAttempt ackNck) => s.sendAttempt config.toConfig ackNck oracle.wrote
  | some (.sendWritten ackNck) => some (s.sendWritten ackNck)
  | some .sendArm => some s.sendArm

end State

inductive Move
  | setErrorFlag (bits : ErrFlag)
  | clrErrorFlag
  | msgHandler
  | handshake
  | eventReset
  | exitSmWork
  | work (oracle : Oracle)
  | callerLocks (thread : Nat) (msg : Msg)
  | sendMsg
  | ackReceiveTimeout
  | ackReceiveQueue
  | msgTransDelayTimeout
  | msgTransDelayGo

def step (config : WorkerConfig) (s : State) : Move → Option State
  | .setErrorFlag bits => some (s.setErrorFlag bits)
  | .clrErrorFlag => some { s with fifo := [] }
  | .msgHandler => some (s.queueWork .recv)
  | .handshake => some { s with exitUfcsAckReceived := false }
  | .eventReset => some s.eventReset
  | .exitSmWork => some s.exitSmWork
  | .work oracle => s.workStep config oracle
  | .callerLocks thread msg => s.callerLocks thread msg
  | .sendMsg =>
    match s.lock with
    | .sender turn => s.sendMsg turn
    | _ => none
  | .ackReceiveTimeout => s.ackReceiveTimeout
  | .ackReceiveQueue => s.ackReceiveQueue
  | .msgTransDelayTimeout => s.msgTransDelayTimeout
  | .msgTransDelayGo => s.msgTransDelayGo

def Initial (s : State) : Prop := s = {}

theorem start_initial : Initial {} := rfl

def chipConfig : WorkerConfig := { checkCrc := false, msgResend := false, replyAck := false }

end VendorModules.UfcsWorker
