import VendorModules.Ufcs.Message
import VendorModules.Lib.Transition

/-!
# Sending one UFCS message

A call of the send function, the work that writes its message and whatever acknowledges it or
times it out. The message stays in the memory of the caller until the call returns, and the work
packs it there each time it writes it. Other callers and the soft reset of the call itself use the
same sender between two holdings of its lock.
-/

namespace VendorModules.Ufcs

open Lib

inductive SendStatus
  | ackTimeout
  | retryOver
  | nck
  | sendOk
  | sendPending
  | sendFail
  | sendStart
  | waitAck
  deriving Repr, DecidableEq

/-- Whose message the sender holds, which is while its lock is held. Of the message of another
caller only matters whether it is an ACK or NCK. -/
inductive Owner
  | own
  | softReset
  | other (ackNck : Bool)
  deriving Repr, DecidableEq

inductive SendError
  | again
  | inval
  | io
  deriving Repr, DecidableEq

inductive Phase
  | ready
  | waiting
  | resetting
  | waitingReset
  | returned (rc : Except SendError Unit)

structure Call where
  config : Config
  retry : Bool

/-- The call and the sender; `transmissions` are the frames of its message that were given to the
hardware so far. -/
structure SendState where
  msg : Msg
  phase : Phase := .ready
  softReset : Bool := false
  sending : Option Owner := none
  status : SendStatus := .sendStart
  msgRetryCount : Nat := 0
  acked : Bool := false
  queued : Bool := false
  ackReceiveTimer : Bool := false
  msgTransDelayTimer : Bool := false
  transmissions : List (List U8) := []

inductive SendMove
  | sendMsg
  | otherSends (ackNck : Bool)
  | sendSoftReset
  | softResetAllocFails
  | msgSendWork (wrote : Bool)
  | recvAckNck (ack : Bool)
  | ackReceiveTimeout
  | msgTransDelayTimeout
  | hardReset
  | busConflict
  | transFail
  | sentComplete
  | exitSm
  | restartDelay
  | wake
  | wakeSoftReset
  | wakeOther
  deriving Repr, DecidableEq

def msgRetryCountMax : Nat := 3

def Call.retryMax (call : Call) : Nat :=
  if call.config.msgResend then msgRetryCountMax else 1

def Body.isAckNckMsg : Body → Bool
  | .ctrl command => command = 0x01#8 || command = 0x02#8
  | _ => false

def Body.isSoftResetMsg : Body → Bool
  | .ctrl command => command = 0x04#8
  | _ => false

def Body.isPingMsg : Body → Bool
  | .ctrl command => command = 0x00#8
  | _ => false

def SendState.ackNck (s : SendState) : Owner → Bool
  | .own => s.msg.body.isAckNckMsg
  | .softReset => false
  | .other ackNck => ackNck

def SendState.complete (s : SendState) (status : SendStatus) : SendState :=
  { s with status := status, acked := true }

def SendState.begin (s : SendState) (owner : Owner) (phase : Phase) : SendState :=
  { s with
    sending := some owner
    msgRetryCount := 0
    acked := false
    queued := true
    phase := phase }

def SendState.finish (s : SendState) (phase : Phase) : SendState :=
  { s with
    sending := none
    queued := false
    status := .sendPending
    msgTransDelayTimer := true
    phase := phase }

def SendStatus.result : SendStatus → Except SendError Unit
  | .sendOk => .ok ()
  | .retryOver => .error .again
  | _ => .error .inval

def writeMsg (call : Call) (s : SendState) (owner : Owner) (wrote : Bool) : SendState × Bool :=
  match owner with
  | .own =>
    match packMsg call.config s.msg msgSizeMax with
    | .error _ => (s, false)
    | .ok (frame, msg) =>
      ({ s with msg := msg, transmissions := s.transmissions ++ [frame] }, wrote)
  | .softReset | .other _ => (s, wrote)

def attempt (call : Call) (s : SendState) (owner : Owner) (wrote : Bool) : SendState :=
  if call.retryMax ≤ s.msgRetryCount then
    { s with ackReceiveTimer := false }.complete .retryOver
  else
    match writeMsg call s owner wrote with
    | (s, false) => s.complete .sendFail
    | (s, true) =>
      if s.ackNck owner then s.complete .sendOk
      else { s with status := .waitAck, ackReceiveTimer := true }

def msgSendWork (call : Call) (s : SendState) (wrote : Bool) : SendState :=
  match s.sending with
  | none => s
  | some owner =>
    if s.ackNck owner then attempt call s owner wrote
    else
      match s.status with
      | .ackTimeout | .nck =>
        attempt call { s with msgRetryCount := s.msgRetryCount + 1 } owner wrote
      | .retryOver | .sendOk | .sendFail => { s with acked := true }
      | .sendPending | .waitAck => s
      | .sendStart => attempt call s owner wrote

/-- What the call does once it is woken: a message that was not acknowledged makes it reset the
other side, once. -/
def sendMsgWoken (s : SendState) : SendState :=
  match s.status.result with
  | .error .again =>
    if s.softReset then s.finish (.returned (.error .io))
    else
      let s := { s with softReset := true }
      if s.msg.body.isAckNckMsg || s.msg.body.isSoftResetMsg || s.msg.body.isPingMsg then
        s.finish (.returned (.error .again))
      else s.finish .resetting
  | rc => s.finish (.returned rc)

def softResetWoken (call : Call) (s : SendState) : SendState :=
  match s.status.result with
  | .ok () => if call.retry then s.finish .ready else s.finish (.returned (.error .again))
  | .error _ => s.finish (.returned (.error .io))

def sendStep (call : Call) (s : SendState) : SendMove → Option SendState
  | .sendMsg =>
    match s.phase, s.sending with
    | .ready, none => some (s.begin .own .waiting)
    | _, _ => none
  | .otherSends ackNck =>
    match s.sending with
    | none => some (s.begin (.other ackNck) s.phase)
    | some _ => none
  | .sendSoftReset =>
    match s.phase, s.sending with
    | .resetting, none => some (s.begin .softReset .waitingReset)
    | _, _ => none
  | .softResetAllocFails =>
    match s.phase with
    | .resetting => some { s with phase := .returned (.error .io) }
    | _ => none
  | .msgSendWork wrote =>
    if s.queued then some (msgSendWork call { s with queued := false } wrote) else none
  | .recvAckNck ack =>
    let s := { s with ackReceiveTimer := false }
    if s.status = .waitAck then
      if ack then some (s.complete .sendOk) else some { s with status := .nck, queued := true }
    else some s
  | .ackReceiveTimeout =>
    if s.ackReceiveTimer then
      some { s with ackReceiveTimer := false, status := .ackTimeout, queued := true }
    else none
  | .msgTransDelayTimeout =>
    if s.msgTransDelayTimer then
      let s := { s with msgTransDelayTimer := false }
      if s.status = .sendPending then
        some { s with status := .sendStart, queued := s.queued || s.sending.isSome }
      else some s
    else none
  | .hardReset => some (s.complete .retryOver)
  | .busConflict => some ({ s with ackReceiveTimer := false }.complete .retryOver)
  | .transFail =>
    if s.status = .waitAck then
      some ({ s with ackReceiveTimer := false }.complete .retryOver)
    else some s
  | .sentComplete =>
    if s.status = .waitAck then some ({ s with ackReceiveTimer := false }.complete .sendOk)
    else some s
  | .exitSm => some (s.complete .retryOver)
  | .restartDelay =>
    match s.sending with
    | none => some { s with status := .sendPending, msgTransDelayTimer := true }
    | some _ => none
  | .wake =>
    if s.sending = some .own ∧ s.acked then some (sendMsgWoken s) else none
  | .wakeSoftReset =>
    if s.sending = some .softReset ∧ s.acked then some (softResetWoken call s) else none
  | .wakeOther =>
    match s.sending with
    | some (.other _) => if s.acked then some (s.finish s.phase) else none
    | _ => none

def Sends (call : Call) (msg : Msg) (s : SendState) : Prop :=
  Reachable (· = { msg := msg }) (StepOf (sendStep call) fun _ _ => True) s

theorem Sends.next {call : Call} {msg : Msg} {s s' : SendState} (sends : Sends call msg s)
    (move : SendMove) (step : sendStep call s move = some s') : Sends call msg s' :=
  Reachable.next sends ⟨move, trivial, step⟩

/-! ## What one step does to the message and the wire -/

/-- A step leaves the message and the wire alone, or packs the one and puts the frame on the
other. -/
inductive Writes (call : Call) (s s' : SendState) : Prop
  | nothing (msg : s'.msg = s.msg) (wire : s'.transmissions = s.transmissions)
  | frame {frame : List U8} {after : Msg} (owner : s.sending = some .own)
      (packed : packMsg call.config s.msg msgSizeMax = .ok (frame, after))
      (msg : s'.msg = after) (wire : s'.transmissions = s.transmissions ++ [frame])

theorem Writes.of_same {call : Call} {s t s' : SendState} (writes : Writes call t s')
    (msg : t.msg = s.msg) (wire : t.transmissions = s.transmissions)
    (sending : t.sending = s.sending) : Writes call s s' := by
  cases writes with
  | nothing msg' wire' => exact .nothing (msg'.trans msg) (wire'.trans wire)
  | frame owner packed msg' wire' =>
    exact .frame (sending ▸ owner) (msg ▸ packed) msg' (wire ▸ wire')

theorem attempt_writes (call : Call) (s : SendState) {owner : Owner}
    (sending : s.sending = some owner) (wrote : Bool) :
    Writes call s (attempt call s owner wrote) := by
  unfold attempt
  split_ifs with exhausted
  · exact .nothing rfl rfl
  · cases owner with
    | own =>
      simp only [writeMsg]
      cases packed : packMsg call.config s.msg msgSizeMax with
      | error errno => exact .nothing rfl rfl
      | ok result =>
        cases wrote with
        | false => exact .frame sending packed rfl rfl
        | true =>
          simp only
          split_ifs
          · exact .frame sending packed rfl rfl
          · exact .frame sending packed rfl rfl
    | softReset =>
      cases wrote with
      | false => exact .nothing rfl rfl
      | true => exact .nothing rfl rfl
    | other ackNck =>
      cases wrote with
      | false => exact .nothing rfl rfl
      | true => cases ackNck <;> exact .nothing rfl rfl

theorem msgSendWork_writes (call : Call) (s : SendState) (wrote : Bool) :
    Writes call s (msgSendWork call s wrote) := by
  unfold msgSendWork
  split
  · exact .nothing rfl rfl
  · rename_i owner sending
    split_ifs
    · exact attempt_writes call s sending wrote
    · split
      · exact (attempt_writes call { s with msgRetryCount := s.msgRetryCount + 1 } sending
          wrote).of_same rfl rfl rfl
      · exact (attempt_writes call { s with msgRetryCount := s.msgRetryCount + 1 } sending
          wrote).of_same rfl rfl rfl
      all_goals first | exact .nothing rfl rfl | exact attempt_writes call s sending wrote

theorem sendMsgWoken_nothing (call : Call) (s : SendState) : Writes call s (sendMsgWoken s) := by
  unfold sendMsgWoken
  split
  · dsimp only
    split_ifs <;> exact .nothing rfl rfl
  · exact .nothing rfl rfl

theorem softResetWoken_nothing (call : Call) (s : SendState) :
    Writes call s (softResetWoken call s) := by
  unfold softResetWoken
  split
  · split_ifs <;> exact .nothing rfl rfl
  · exact .nothing rfl rfl

theorem sendStep_writes {call : Call} {s s' : SendState} {move : SendMove}
    (step : sendStep call s move = some s') : Writes call s s' := by
  cases move with
  | msgSendWork wrote =>
    simp only [sendStep] at step
    split_ifs at step
    cases step
    exact (msgSendWork_writes call { s with queued := false } wrote).of_same rfl rfl rfl
  | wake =>
    simp only [sendStep] at step
    split_ifs at step
    cases step
    exact sendMsgWoken_nothing call s
  | wakeSoftReset =>
    simp only [sendStep] at step
    split_ifs at step
    cases step
    exact softResetWoken_nothing call s
  | _ =>
    simp only [sendStep] at step
    repeat' split at step
    all_goals first
      | (cases step; exact .nothing rfl rfl)
      | (cases step)

end VendorModules.Ufcs
