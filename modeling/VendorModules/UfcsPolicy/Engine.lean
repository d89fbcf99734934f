import VendorModules.Lib.Transition
import Mathlib.Logic.Function.Basic

/-!
# The UFCS policy engine and its clients

A client pushes the event of its request, waits for `request_ack` and then reads `state.err`. One
task handles all events: the idle handler clears the error and picks a state for the event, and
the handler of that state sends messages and takes the next events itself until the request is
settled. Resets and exits settle whatever is under way.

A step of the task is what it does between two waits (for an event, or for a message to be
sent). Locked sections of the clients are steps. Messages that the task refuses while it waits
(`UFCS_EVENT_SEND_REFUSE`) never reach a handler and are left out.
-/

namespace VendorModules.UfcsPolicy

open Function

inductive PeState
  | idel
  | softReset
  | hwReset
  | sendExit
  | recvExit
  | handshake
  | outputCap
  | request
  | sendSinkInfo
  | getSourceInfo
  | getCableInfo
  | getDeviceInfo
  | getErrorInfo
  | sendDeviceInfo
  | sendErrorInfo
  | configWd
  | verifyRequest
  | powerChange
  | getEmarkInfo
  | getPowerInfo
  | testRequest
  deriving DecidableEq

inductive EventType
  | sendGetDeviceInfo
  | sendGetErrorInfo
  | sendGetSourceInfo
  | sendRequest
  | sendGetOutputCap
  | sendExitUfcsMode
  | handshake
  | sendVerifyRequest
  | sendConfigWd
  | sendStartCableDetect
  | sendGetEmarkInfo
  | sendGetPowerInfo
  | timeout
  | recvAck
  | recvNck
  | recvHwReset
  | recvSoftReset
  | recvPing
  | recvExitUfcsMode
  | recvGetSinkInfo
  | recvGetDeviceInfo
  | recvGetErrorInfo
  | recvPowerChange
  | recvTestRequest
  | recvRefuse
  | recvAccept
  | recvPowerReady
  | recvOutputCap
  | recvSourceInfo
  | recvDeviceInfo
  | recvErrorInfo
  | recvVerifyResponse
  | recvCableInfo
  | recvStartCableDetect
  | recvEndCableDetect
  | recvEmarkInfo
  | recvPowerInfo
  | other
  deriving DecidableEq

/-- `msg` and `data` tell whether the pointers are set. `origin` is no part of an event: the call
of the client that has pushed it. -/
structure Event where
  type : EventType
  msg : Bool := false
  data : Bool := false
  origin : Option Nat := none
  deriving DecidableEq

inductive Request
  | pdoSet
  | pdoInfo
  | sourceInfo
  | deviceInfo
  | errorInfo
  | cableInfo
  | emarkInfo
  | powerInfo
  | configWatchdog
  | verifyAdapter
  | exitUfcsMode
  | handshake
  deriving DecidableEq

def Request.event : Request → Event
  | .pdoSet => { type := .sendRequest, data := true }
  | .pdoInfo => { type := .sendGetOutputCap }
  | .sourceInfo => { type := .sendGetSourceInfo }
  | .deviceInfo => { type := .sendGetDeviceInfo }
  | .errorInfo => { type := .sendGetErrorInfo }
  | .cableInfo => { type := .sendStartCableDetect }
  | .emarkInfo => { type := .sendGetEmarkInfo }
  | .powerInfo => { type := .sendGetPowerInfo }
  | .configWatchdog => { type := .sendConfigWd, data := true }
  | .verifyAdapter => { type := .sendVerifyRequest, data := true }
  | .exitUfcsMode => { type := .sendExitUfcsMode }
  | .handshake => { type := .handshake }

/-- The switch of `ufcs_state_idel_handle`. -/
def idelNext : EventType → Option PeState
  | .recvHwReset => some .hwReset
  | .recvSoftReset => some .softReset
  | .recvGetSinkInfo => some .sendSinkInfo
  | .recvGetDeviceInfo => some .sendDeviceInfo
  | .recvGetErrorInfo => some .sendErrorInfo
  | .sendGetDeviceInfo => some .getDeviceInfo
  | .sendGetErrorInfo => some .getErrorInfo
  | .sendGetSourceInfo => some .getSourceInfo
  | .sendRequest => some .request
  | .sendGetOutputCap => some .outputCap
  | .recvExitUfcsMode => some .recvExit
  | .sendExitUfcsMode => some .sendExit
  | .handshake => some .handshake
  | .sendVerifyRequest => some .verifyRequest
  | .recvPowerChange => some .powerChange
  | .sendConfigWd => some .configWd
  | .sendStartCableDetect => some .getCableInfo
  | .sendGetEmarkInfo => some .getEmarkInfo
  | .sendGetPowerInfo => some .getPowerInfo
  | .recvTestRequest => some .testRequest
  | _ => none

/-- A message that is sent and what is received on it, in one handler or in a function of its
own (`ufcs_pe_oplus_get_emark_info` and the like, and the three of the cable). -/
inductive Exchange
  | outputCap
  | request
  | sourceInfo
  | deviceInfo
  | errorInfo
  | configWd
  | verify
  | emark
  | powerInfo
  | startCableDetect
  | cableInfo
  | detectCable
  deriving DecidableEq

namespace Exchange

def answer : Exchange → EventType
  | .outputCap => .recvOutputCap
  | .request => .recvPowerReady
  | .sourceInfo => .recvSourceInfo
  | .deviceInfo => .recvDeviceInfo
  | .errorInfo => .recvErrorInfo
  | .configWd => .recvAccept
  | .verify => .recvVerifyResponse
  | .emark => .recvEmarkInfo
  | .powerInfo => .recvPowerInfo
  | .startCableDetect => .recvAccept
  | .cableInfo => .recvCableInfo
  | .detectCable => .recvCableInfo

def readsMsg : Exchange → Bool
  | .request | .configWd | .startCableDetect => false
  | _ => true

def passes : Exchange → EventType → Bool
  | .request, .recvAccept => true
  | .verify, .recvAccept | .verify, .recvGetDeviceInfo => true
  | .detectCable, .recvAccept | .detectCable, .recvStartCableDetect
  | .detectCable, .recvEndCableDetect => true
  | _, _ => false

/-- The exchange is a function that returns `-EPROTO` to its handler. -/
def isFunction : Exchange → Bool
  | .emark | .powerInfo | .startCableDetect | .cableInfo | .detectCable => true
  | _ => false

def readsData : Exchange → Bool
  | .request | .configWd | .verify => true
  | _ => false

end Exchange

def PeState.exchange : PeState → Option Exchange
  | .outputCap => some .outputCap
  | .request => some .request
  | .getSourceInfo => some .sourceInfo
  | .getCableInfo => some .startCableDetect
  | .getDeviceInfo => some .deviceInfo
  | .getErrorInfo => some .errorInfo
  | .configWd => some .configWd
  | .verifyRequest => some .verify
  | .getEmarkInfo => some .emark
  | .getPowerInfo => some .powerInfo
  | _ => none

inductive Reaction
  | again
  | resend
  | answered
  | giveUp
  | fatal
  | softReset
  deriving DecidableEq

/-- The switch over the event received: `busy` tells whether a refusal says that the device is
busy, `infoSent` whether the device info asked for during a verification can be sent. -/
def react (x : Exchange) (softReset : Bool) (event : Event) (busy infoSent : Bool) : Reaction :=
  if event.type = .recvRefuse then
    if !event.msg then .again else if !busy then .giveUp else if softReset then .fatal else .resend
  else if event.type = .timeout then .giveUp
  else if event.type = .recvSoftReset then .softReset
  else if event.type = x.answer then if x.readsMsg && !event.msg then .again else .answered
  else if x.passes event.type then
    if event.type = .recvGetDeviceInfo && !infoSent then .fatal else .again
  else if event.msg then .fatal
  else .again

structure Completion where
  done : Nat := 0
  all : Bool := false
  deriving DecidableEq

namespace Completion

def complete (c : Completion) : Completion := { c with done := c.done + 1 }

def completeAll (c : Completion) : Completion := { c with all := true }

def isDone (c : Completion) : Bool := c.all || 0 < c.done

def take (c : Completion) : Completion := if c.all then c else { c with done := c.done - 1 }

end Completion

inductive Sm
  | asleep
  | fetch
  | sendingExit
  | handshaking (retryCount : Nat)
  | sending (x : Exchange) (softReset : Bool)
  | receiving (x : Exchange) (softReset : Bool)
  deriving DecidableEq

inductive Phase
  | absent
  | called (request : Request)
  /-- The client holds `ext_req_lock`. -/
  | holding (request : Request)
  | waiting (request : Request)
  | woken (request : Request)
  | done
  deriving DecidableEq

structure Returned where
  call : Nat
  request : Request
  rc : Int
  deriving DecidableEq

def EIO : Int := -5

def EAGAIN : Int := -11

def EINVAL : Int := -22

def EPROTO : Int := -71

/-- `serving` is the call whose event is handled, and `answered` the calls whose handler has ended
with the adapter's answer; no code reads them. `peLock` tells whether the task holds the lock. -/
structure State where
  curr : PeState := .idel
  err : Int := 0
  handshakeSuccess : Bool := false
  requestAck : Completion := {}
  peLock : Bool := false
  extReqLock : Option Nat := none
  events : List Event := []
  exit : Bool := false
  smTaskWakeup : Bool := false
  sm : Sm := .asleep
  serving : Option Nat := none
  answered : List Nat := []
  phase : Nat → Phase := fun _ => .absent
  returned : List Returned := []

namespace State

variable (s : State)

def complete : State := { s with requestAck := s.requestAck.complete }

def freeEvent : State := { s with events := s.events.tail }

def exitSmWork : State :=
  { s with
    events := [], handshakeSuccess := false, curr := .idel, err := EIO
    requestAck := s.requestAck.completeAll }

def resetSmWork : State :=
  { s with events := [], curr := .idel, err := EAGAIN, requestAck := s.requestAck.completeAll }

/-- `ufcs_source_hard_reset` -/
def hardReset : State := { s.exitSmWork with handshakeSuccess := false }

def succeed : State := { s.complete with answered := s.serving.toList ++ s.answered }

/-- Back in the loop of `ufcs_sm_task`: the lock is dropped in the idle state. -/
def back : State :=
  { s with
    peLock := s.peLock && s.curr ≠ .idel
    sm := if s.exit then .asleep else .fetch }

/-- `ufcs_state_idel_handle`. Only an event without a state of its own is freed here; the others
are still there for the handler of the state. -/
def idelHandle (event : Event) (refuseFails : Bool) : State :=
  let s : State := { s with peLock := true, err := 0 }
  match idelNext event.type with
  | some next => { s with curr := next }
  | none => if event.msg && event.type ≠ .recvPing && refuseFails then s.freeEvent.hardReset
    else s.freeEvent

def handle (event : Event) : State :=
  let s : State := { s with serving := event.origin }
  match s.curr.exchange with
  | some x =>
    if x.readsData && !event.data then
      { { s with err := EINVAL }.complete.freeEvent with curr := .idel }.back
    else { s.freeEvent with sm := .sending x false }
  | none =>
    match s.curr with
    | .softReset => s.freeEvent.resetSmWork.back
    | .hwReset => s.freeEvent.exitSmWork.back
    | .sendExit => { s.freeEvent with sm := .sendingExit }
    | .recvExit => { s.freeEvent with handshakeSuccess := false }.back
    | .handshake => { s.freeEvent with sm := .handshaking 1 }
    | _ => { s.freeEvent with curr := .idel }.back

def fatal (x : Exchange) : State :=
  if x = .cableInfo then { s with sm := .sending .detectCable false } else s.hardReset.back

/-- The answer has come. A verify response can always be checked (`ufcs_get_encrypt_data` does
not fail), whether it passes or not. -/
def settle (x : Exchange) : State :=
  match x with
  | .startCableDetect => { s with sm := .sending .cableInfo false }
  | .verify => { { s with err := 0 }.succeed with curr := .idel }.back
  | _ => { s.succeed with curr := .idel }.back

def receive (x : Exchange) (softReset : Bool) : Reaction → State
  | .again => { s.freeEvent with sm := .receiving x softReset }
  | .resend => { s.freeEvent with sm := .sending x true }
  | .answered => s.freeEvent.settle x
  | .giveUp =>
    { { s.freeEvent with err := if x.isFunction then EPROTO else EAGAIN }.complete with
      curr := .idel }.back
  | .fatal => s.freeEvent.fatal x
  | .softReset =>
    if x.isFunction then { { s with err := EPROTO }.complete with curr := .softReset }.back
    else { s with curr := .softReset }.back

/-- An event received by `ufcs_state_handshake_handle`; `pinged` tells whether some baud rate
works. -/
def receiveHandshake (hardRetry : Bool) (retryCount : Nat) (event : Event) (pinged : Bool) :
    State :=
  match event.type with
  | .recvAck =>
    if pinged then { { s with handshakeSuccess := true }.succeed.freeEvent with curr := .idel }.back
    else s.freeEvent.hardReset.back
  | .recvNck | .timeout =>
    if retryCount < 3 ∧ !hardRetry then { s.freeEvent with sm := .handshaking (retryCount + 1) }
    else s.freeEvent.hardReset.back
  | .recvSoftReset => { s with curr := .softReset }.back
  | _ => if event.msg then s.freeEvent.hardReset.back else s.freeEvent

def goto (n : Nat) (phase : Phase) : State := { s with phase := update s.phase n phase }

def ret (n : Nat) (request : Request) (rc : Int) : State :=
  { s.goto n .done with returned := s.returned ++ [{ call := n, request := request, rc := rc }] }

end State

inductive Move
  | call (n : Nat) (request : Request)
  | lockExt (n : Nat)
  | submit (n : Nat)
  | wake (n : Nat)
  | read (n : Nat)
  /-- The receive worker or a timer pushes an event. -/
  | push (type : EventType) (msg : Bool)
  | wakeSm
  | fetch (refuseFails : Bool)
  | sent (ok : Bool)
  | receive (busy infoSent pinged : Bool)
  /-- `ufcs_force_exit`, after its request to exit. -/
  | forceExit
  /-- `ufcs_intf_source_hard_reset` -/
  | sourceHardReset
  deriving DecidableEq

def EventType.isReceived : EventType → Bool
  | .sendGetDeviceInfo | .sendGetErrorInfo | .sendGetSourceInfo | .sendRequest | .sendGetOutputCap
  | .sendExitUfcsMode | .handshake | .sendVerifyRequest | .sendConfigWd | .sendStartCableDetect
  | .sendGetEmarkInfo | .sendGetPowerInfo => false
  | _ => true

/-- A step of the clients. All requests but the handshake need a handshake that has succeeded. -/
def clientStep (s : State) : Move → Option State
  | .call n request =>
    if s.phase n = .absent then
      if request = .handshake ∨ s.handshakeSuccess then some (s.goto n (.called request))
      else some (s.ret n request EINVAL)
    else none
  | .lockExt n =>
    match s.phase n, s.extReqLock with
    | .called request, none =>
      let s := if request = .handshake then { s with exit := false, smTaskWakeup := true } else s
      some ({ s with extReqLock := some n }.goto n (.holding request))
    | _, _ => none
  | .submit n =>
    if s.peLock then none
    else
      match s.phase n with
      | .holding request =>
        let s : State := { s with requestAck := {} }
        if request ≠ .handshake ∧ ¬s.handshakeSuccess then
          some ({ s with extReqLock := none }.ret n request EINVAL)
        else
          let event := { request.event with origin := some n }
          some ({ s with
            events := s.events ++ [event]
            handshakeSuccess := s.handshakeSuccess && request ≠ Request.handshake }.goto n
              (.waiting request))
      | _ => none
  | .wake n =>
    match s.phase n with
    | .waiting request =>
      if s.requestAck.isDone then
        some ({ s with requestAck := s.requestAck.take }.goto n (.woken request))
      else none
    | _ => none
  | .read n =>
    match s.phase n with
    | .woken request =>
      let rc := if request = .handshake then if s.handshakeSuccess then 0 else EIO else s.err
      some ({ s with
        extReqLock := none
        handshakeSuccess := s.handshakeSuccess && request ≠ Request.exitUfcsMode }.ret n request rc)
    | _ => none
  | _ => none

def smStep (hardRetry : Bool) (s : State) : Move → Option State
  | .wakeSm =>
    if s.sm = .asleep ∧ s.smTaskWakeup then some { s with smTaskWakeup := false, sm := .fetch }
    else none
  | .fetch refuseFails =>
    if s.sm = .fetch then
      match s.events with
      | [] => if s.exit then some { s.exitSmWork with peLock := false, sm := .asleep } else none
      | event :: _ =>
        if s.curr = .idel then if s.peLock then none else some (s.idelHandle event refuseFails).back
        else some (s.handle event)
    else none
  | .sent ok =>
    match s.sm with
    | .sendingExit => some (if ok then s.succeed.back else s.hardReset.back)
    | .sending x softReset =>
      some (if ok then { s with sm := .receiving x softReset } else s.fatal x)
    | _ => none
  | .receive busy infoSent pinged =>
    match s.sm, s.events with
    | .receiving x softReset, event :: _ =>
      some (s.receive x softReset (react x softReset event busy infoSent))
    | .handshaking retryCount, event :: _ =>
      some (s.receiveHandshake hardRetry retryCount event pinged)
    | .receiving _ _, [] | .handshaking _, [] => if s.exit then some s.exitSmWork.back else none
    | _, _ => none
  | _ => none

def step (hardRetry : Bool) (s : State) (move : Move) : Option State :=
  match move with
  | .push type msg =>
    if type.isReceived then some { s with events := s.events ++ [{ type := type, msg := msg }] }
    else none
  | .forceExit =>
    some { s.exitSmWork with exit := true, smTaskWakeup := false, peLock := false }
  | .sourceHardReset => some s.hardReset
  | .call _ _ | .lockExt _ | .submit _ | .wake _ | .read _ => clientStep s move
  | .wakeSm | .fetch _ | .sent _ | .receive _ _ _ => smStep hardRetry s move

def Initial (s : State) : Prop := s = {}

end VendorModules.UfcsPolicy
