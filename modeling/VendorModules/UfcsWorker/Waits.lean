import VendorModules.UfcsWorker.Machine
import VendorModules.Lib.Transition

/-!
# Whether a thread that sends is woken

The invariant looks at the status: each status that a waiting thread may be left with has
somebody who will change it, unless the send work is still to run or the thread is woken already.
-/

namespace VendorModules.UfcsWorker

open Ufcs Lib

/-! ## Where the sender and the worker are -/

def TurnPhase.engaged : TurnPhase → Bool
  | .prepared | .waiting | .woken | .cancelled => true
  | _ => false

def TurnPhase.isWaiting : TurnPhase → Bool
  | .waiting => true
  | _ => false

def TurnPhase.isCancelled : TurnPhase → Bool
  | .cancelled => true
  | _ => false

def TurnPhase.isPended : TurnPhase → Bool
  | .pended _ => true
  | _ => false

def TurnPhase.isConcluded : TurnPhase → Bool
  | .concluded _ => true
  | _ => false

def Lock.inPhase (phase : TurnPhase → Bool) : Lock → Bool
  | .sender turn => phase turn.phase
  | _ => false

theorem Lock.engaged_of_waiting {lock : Lock} (waiting : lock.inPhase TurnPhase.isWaiting) :
    lock.inPhase TurnPhase.engaged := by
  cases lock with
  | sender turn =>
    obtain ⟨party, number, msg, phase⟩ := turn
    cases phase <;> first | rfl | cases waiting
  | free | recvWork => cases waiting

def sendsEarly : Option Stage → Bool
  | some .sendCheck | some .sendSignal | some (.sendAttempt _) | some (.sendWritten _) => true
  | _ => false

def arms : Option Stage → Bool
  | some .sendArm => true
  | _ => false

def checks : Option Stage → Bool
  | some .sendCheck => true
  | _ => false

def restarts : Option Stage → Bool
  | some (.recvRestart _) => true
  | _ => false

def replies : Option Stage → Bool
  | some (.eventReplying ..) => true
  | _ => false

def answers : Option Stage → Bool
  | some (.recvLooked _ waitAck) => waitAck
  | _ => false

def AckTimer.isActive (timer : AckTimer) : Bool := timer.armed || timer.firing

def DelayTimer.isActive (timer : DelayTimer) : Bool := timer.armed || timer.firing.isSome

namespace State

variable (s : State)

/-- The wait of the turn can end: it is signaled, or the send work is to run on a worker that
does not wait itself, or a timer is active. -/
def CanEnd (turn : Turn) : Prop :=
  s.ack.isDone ∨ ((.send ∈ s.queue ∨ s.sendRuns) ∧ turn.party ≠ .worker) ∨
    s.ackTimer.isActive ∨ s.delayTimer.isActive

/-- The worker does not send itself, no status is reset that alone keeps a thread waiting, and
no work starts or turn ends in the gaps the code leaves for it. -/
def Sends : Move → Prop
  | .eventReset => s.lock.inPhase TurnPhase.isWaiting → s.ack.isDone ∨ .send ∈ s.queue
  | .work oracle =>
    match s.running with
    | none => s.queue.head? = some .send → s.lock.inPhase TurnPhase.isCancelled = false
    | some (.eventReply ..) => oracle.allocated = false
    | _ => True
  | .sendMsg => s.lock.inPhase TurnPhase.isConcluded → answers s.running = false
  | _ => True

/-! ## The invariant -/

def Tended : Prop :=
  s.ack.isDone ∨ .send ∈ s.queue ∨ sendsEarly s.running ∨ s.status = .sendPending ∨
    s.status = .waitAck ∨ (s.status = .ackTimeout ∧ s.ackTimer.firing) ∨
    (s.status = .sendStart ∧ s.delayTimer.firing = some .started)

structure Live : Prop where
  caller : ∀ turn, s.lock = .sender turn →
    turn.party ≠ .worker ∧ turn.msg.body.isAckNckMsg = false
  worker : replies s.running = false
  msg : ∀ msg, s.msg = some msg → s.lock.inPhase TurnPhase.engaged ∧ msg.body.isAckNckMsg = false
  engaged : s.lock.inPhase TurnPhase.engaged → s.msg.isSome
  runs : s.sendRuns → s.lock.inPhase TurnPhase.isCancelled = false
  meant : s.sendRuns → checks s.running = false → s.lock.inPhase TurnPhase.engaged
  waitAck : s.status = .waitAck → s.ackTimer.armed ∨ arms s.running
  pending : s.status = .sendPending → s.delayTimer.armed ∨
    s.delayTimer.firing = some .checked ∨ s.lock.inPhase TurnPhase.isPended ∨ restarts s.running
  restart : restarts s.running → s.lock = .recvWork
  tended : s.lock.inPhase TurnPhase.isWaiting → s.Tended

variable {s}

theorem Live.canEnd (live : s.Live) {turn : Turn} (held : s.lock = .sender turn)
    (waits : turn.phase = .waiting) : s.CanEnd turn := by
  have caller : turn.party ≠ .worker := (live.caller turn held).1
  have waiting : s.lock.inPhase TurnPhase.isWaiting := by rw [held, Lock.inPhase, waits]; rfl
  have away : s.lock.inPhase TurnPhase.isPended = false ∧ s.lock ≠ .recvWork := by
    rw [held]
    exact ⟨by rw [Lock.inPhase, waits]; rfl, by simp⟩
  rcases live.tended waiting with done | queued | early | pending | waitAck | timeout | started
  · exact .inl done
  · exact .inr (.inl ⟨.inl queued, caller⟩)
  · refine .inr (.inl ⟨.inr ?_, caller⟩)
    revert early
    unfold sendsEarly sendRuns
    split <;> simp_all
  · rcases live.pending pending with armed | checked | pended | restarts
    · exact .inr (.inr (.inr (by simp [DelayTimer.isActive, armed])))
    · exact .inr (.inr (.inr (by simp [DelayTimer.isActive, checked])))
    · rw [away.1] at pended
      cases pended
    · exact absurd (live.restart restarts) away.2
  · rcases live.waitAck waitAck with armed | arming
    · exact .inr (.inr (.inl (by simp [AckTimer.isActive, armed])))
    · refine .inr (.inl ⟨.inr ?_, caller⟩)
      revert arming
      unfold arms sendRuns
      split <;> simp_all
  · exact .inr (.inr (.inl (by simp [AckTimer.isActive, timeout.2])))
  · exact .inr (.inr (.inr (by simp [DelayTimer.isActive, started.2])))

/-! ## Steps that leave the sender alone -/

variable {s' : State}

structure SameSender (s s' : State) : Prop where
  lock : s'.lock = s.lock
  msg : s'.msg = s.msg
  status : s'.status = s.status
  ack : s'.ack = s.ack
  ackTimer : s'.ackTimer = s.ackTimer
  delayTimer : s'.delayTimer = s.delayTimer
  queue : .send ∈ s.queue → .send ∈ s'.queue

theorem Live.of_calls (live : s.Live) (lock : s'.lock = s.lock) (msg : s'.msg = s.msg)
    (running : s'.running = s.running)
    (waitAck : s'.status = .waitAck → s'.ackTimer.armed ∨ arms s.running)
    (pending : s'.status = .sendPending → s'.delayTimer.armed ∨
      s'.delayTimer.firing = some .checked ∨ s.lock.inPhase TurnPhase.isPended ∨
        restarts s.running)
    (tended : s.lock.inPhase TurnPhase.isWaiting → s'.Tended) : s'.Live := by
  constructor
  · rw [lock]
    exact live.caller
  · rw [running]
    exact live.worker
  · rw [msg, lock]
    exact live.msg
  · rw [msg, lock]
    exact live.engaged
  · rw [sendRuns, running, lock]
    exact live.runs
  · rw [sendRuns, running, lock]
    exact live.meant
  · rw [running]
    exact waitAck
  · rw [lock, running]
    exact pending
  · rw [lock, running]
    exact live.restart
  · rw [lock]
    exact tended

theorem Live.same (live : s.Live) (same : s.SameSender s') (running : s'.running = s.running) :
    s'.Live := by
  apply live.of_calls same.lock same.msg running
  · rw [same.status, same.ackTimer]
    exact live.waitAck
  · rw [same.status, same.delayTimer]
    exact live.pending
  · intro waiting
    unfold Tended
    rw [same.ack, running, same.status, same.ackTimer, same.delayTimer]
    rcases live.tended waiting with done | queued | others
    · exact .inl done
    · exact .inr (.inl (same.queue queued))
    · exact .inr (.inr others)

def isAside : Option Stage → Bool
  | none => true
  | some stage =>
    match stage with
    | .recvRestart _ | .eventReplying .. | .sendCheck | .sendSignal | .sendAttempt _
    | .sendWritten _ | .sendArm => false
    | _ => true

structure Aside (running : Option Stage) : Prop where
  early : sendsEarly running = false
  arms : arms running = false
  restarts : restarts running = false
  replies : replies running = false

theorem aside_of {running : Option Stage} (aside : isAside running) : Aside running := by
  rcases running with _ | stage
  · exact ⟨rfl, rfl, rfl, rfl⟩
  · cases stage <;> first | exact ⟨rfl, rfl, rfl, rfl⟩ | cases aside

theorem sendRuns_iff : s.sendRuns ↔ sendsEarly s.running ∨ arms s.running := by
  unfold sendRuns sendsEarly arms
  split <;> simp_all

theorem Aside.sendRuns (aside : Aside s.running) : s.sendRuns = false := by
  rw [Bool.eq_false_iff]
  intro runs
  rcases sendRuns_iff.mp runs with early | arming
  · rw [aside.early] at early
    cases early
  · rw [aside.arms] at arming
    cases arming

theorem Live.aside (live : s.Live) (same : s.SameSender s') (before : isAside s.running)
    (after : isAside s'.running) : s'.Live := by
  have was := aside_of before
  have is := aside_of after
  constructor
  · rw [same.lock]
    exact live.caller
  · exact is.replies
  · rw [same.msg, same.lock]
    exact live.msg
  · rw [same.msg, same.lock]
    exact live.engaged
  · rw [is.sendRuns]
    simp
  · rw [is.sendRuns]
    simp
  · rw [same.status, same.ackTimer, is.arms, ← was.arms]
    exact live.waitAck
  · rw [same.status, same.delayTimer, same.lock, is.restarts, ← was.restarts]
    exact live.pending
  · rw [is.restarts]
    simp
  · rw [same.lock]
    intro waiting
    unfold Tended
    rw [same.ack, is.early, ← was.early, same.status, same.ackTimer, same.delayTimer]
    rcases live.tended waiting with done | queued | others
    · exact .inl done
    · exact .inr (.inl (same.queue queued))
    · exact .inr (.inr others)

theorem SameSender.queueWork (work : Work) : s.SameSender (s.queueWork work) := by
  have kept : .send ∈ s.queue → .send ∈ (s.queueWork work).queue := by
    unfold State.queueWork
    split_ifs
    · exact id
    · exact fun there => List.mem_append_left _ there
  refine { lock := ?_, msg := ?_, status := ?_, ack := ?_, ackTimer := ?_, delayTimer := ?_,
           queue := kept }
  all_goals
    unfold State.queueWork
    split_ifs <;> rfl

theorem mem_send_queueWork : .send ∈ (s.queueWork .send).queue := by
  unfold State.queueWork
  split_ifs with there
  · exact there
  · exact List.mem_append_right _ (List.mem_singleton.mpr rfl)

/-! ## Steps that signal the thread -/

@[simp] theorem complete_isDone (status : SendStatus) : (s.complete status).ack.isDone := by
  simp [complete, UfcsPolicy.Completion.complete, UfcsPolicy.Completion.isDone]

theorem Live.signaled (live : s.Live) (lock : s'.lock = s.lock) (msg : s'.msg = s.msg)
    (running : s'.running = s.running) (done : s'.ack.isDone) (ends : s'.status ≠ .waitAck)
    (goes : s'.status ≠ .sendPending) : s'.Live := by
  apply live.of_calls lock msg running
  · exact fun waits => absurd waits ends
  · exact fun waits => absurd waits goes
  · exact fun _ => .inl done

theorem Live.eventReset (live : s.Live)
    (careful : s.lock.inPhase TurnPhase.isWaiting → s.ack.isDone ∨ .send ∈ s.queue) :
    s.eventReset.Live := by
  refine live.of_calls rfl rfl rfl ?_ ?_ ?_
  · intro waits
    cases waits
  · intro waits
    cases waits
  · intro waiting
    rcases careful waiting with done | queued
    · exact .inl done
    · exact .inr (.inl queued)

theorem Live.exitSmWork (live : s.Live) : s.exitSmWork.Live :=
  live.signaled rfl rfl rfl (by
    simp [State.exitSmWork, UfcsPolicy.Completion.completeAll, UfcsPolicy.Completion.isDone])
    (by simp [State.exitSmWork]) (by simp [State.exitSmWork])

/-! ## Taking turns -/

theorem not_inPhase_of_free {phase : TurnPhase → Bool} (free : s.lock.isFree) :
    s.lock.inPhase phase = false := by
  revert free
  unfold Lock.isFree Lock.inPhase
  split <;> simp_all

theorem Live.msg_none (live : s.Live) (idle : s.lock.inPhase TurnPhase.engaged = false) :
    s.msg = none := by
  cases there : s.msg with
  | none => rfl
  | some msg =>
    rw [(live.msg msg there).1] at idle
    cases idle

theorem Live.callerLocks (live : s.Live) {thread : Nat} {msg : Msg}
    (locks : s.callerLocks thread msg = some s') : s'.Live := by
  unfold State.callerLocks at locks
  split_ifs at locks with may
  cases locks
  simp only [Bool.and_eq_true, Bool.not_eq_true'] at may
  obtain ⟨free, sends⟩ := may
  have idle : s.lock.inPhase TurnPhase.engaged = false := not_inPhase_of_free free
  have pended : s.lock.inPhase TurnPhase.isPended = false := not_inPhase_of_free free
  have none : s.msg = none := live.msg_none idle
  constructor
  · intro turn held
    cases held
    exact ⟨by simp, sends⟩
  · exact live.worker
  · intro other there
    rw [none] at there
    cases there
  · intro engaged
    cases engaged
  · exact fun _ => rfl
  · intro runs past
    have engaged := live.meant runs past
    rw [idle] at engaged
    cases engaged
  · exact live.waitAck
  · intro pending
    rcases live.pending pending with armed | checked | gap | restarts
    · exact .inl armed
    · exact .inr (.inl checked)
    · rw [pended] at gap
      cases gap
    · exact .inr (.inr (.inr restarts))
  · intro restarts
    have held := live.restart restarts
    rw [held] at free
    cases free
  · intro waiting
    cases waiting

theorem Live.enter {turn : Turn} {phase : TurnPhase} (live : s.Live)
    (held : s.lock = .sender turn) (running : s'.running = s.running)
    (lock : s'.lock = .sender { turn with phase := phase })
    (ackTimer : s'.ackTimer = s.ackTimer) (delayTimer : s'.delayTimer = s.delayTimer)
    (msg : ∀ msg, s'.msg = some msg → phase.engaged ∧ msg.body.isAckNckMsg = false)
    (engaged : phase.engaged → s'.msg.isSome)
    (cancelled : phase.isCancelled → s.sendRuns = false)
    (meant : s.sendRuns → checks s.running = false → phase.engaged)
    (status : s'.status = s.status ∧ turn.phase.isPended = false ∨
      s'.status = .sendPending ∧ phase.isPended)
    (tended : phase.isWaiting → s'.Tended) : s'.Live := by
  have waitAck : s'.status = .waitAck → s.status = .waitAck := by
    rcases status with ⟨same, -⟩ | ⟨pending, -⟩
    · rw [same]
      exact id
    · rw [pending]
      intro waits
      cases waits
  constructor
  · intro turn' held'
    rw [lock] at held'
    cases held'
    exact live.caller turn held
  · rw [running]
    exact live.worker
  · rw [lock]
    exact msg
  · rw [lock]
    exact engaged
  · rw [sendRuns, running, lock]
    intro runs
    cases cancels : phase.isCancelled with
    | false => exact cancels
    | true =>
      have idle := cancelled cancels
      unfold sendRuns at idle
      rw [idle] at runs
      cases runs
  · rw [sendRuns, running, lock]
    exact meant
  · rw [ackTimer, running]
    exact fun waits => live.waitAck (waitAck waits)
  · rw [delayTimer, lock, running]
    intro pending
    rcases status with ⟨same, away⟩ | ⟨-, gap⟩
    · rcases live.pending (same ▸ pending) with armed | checked | gap | restarts
      · exact .inl armed
      · exact .inr (.inl checked)
      · rw [held, Lock.inPhase, away] at gap
        cases gap
      · exact .inr (.inr (.inr restarts))
    · exact .inr (.inr (.inl gap))
  · rw [running]
    intro restarts
    have other := live.restart restarts
    rw [held] at other
    cases other
  · rw [lock]
    exact tended

theorem Live.meant_engaged (live : s.Live) {turn : Turn} (held : s.lock = .sender turn)
    (runs : s.sendRuns) (past : checks s.running = false) : turn.phase.engaged := by
  have engaged := live.meant runs past
  rw [held] at engaged
  exact engaged

theorem Live.msg_engaged (live : s.Live) {turn : Turn} (held : s.lock = .sender turn)
    (engaged : turn.phase.engaged) : ∃ msg, s.msg = some msg ∧ msg.body.isAckNckMsg = false := by
  have there : s.msg.isSome := live.engaged (by rw [held]; exact engaged)
  obtain ⟨msg, there⟩ := Option.isSome_iff_exists.mp there
  exact ⟨msg, there, (live.msg msg there).2⟩

theorem Live.sendMsg (live : s.Live) {turn : Turn} (held : s.lock = .sender turn)
    (goes : s.sendMsg turn = some s') : s'.Live := by
  unfold State.sendMsg at goes
  split at goes
  case h_1 phase =>
    cases goes
    refine live.enter held rfl rfl rfl rfl ?_ ?_ ?_ ?_ ?_ ?_
    · intro msg there
      cases there
      exact ⟨rfl, (live.caller turn held).2⟩
    · exact fun _ => rfl
    · intro cancelled
      cases cancelled
    · exact fun _ _ => rfl
    · exact .inl ⟨rfl, by rw [phase]; rfl⟩
    · intro waiting
      cases waiting
  case h_2 phase =>
    cases goes
    have same := SameSender.queueWork (s := s) .send
    have engaged : turn.phase.engaged := by rw [phase]; rfl
    obtain ⟨msg, there, sends⟩ := live.msg_engaged held engaged
    refine (live.same same (queueWork_running _)).enter (same.lock.trans held) rfl rfl rfl rfl
      ?_ ?_ ?_ ?_ ?_ ?_
    · intro msg' there'
      cases (same.msg.trans there).symm.trans there'
      exact ⟨rfl, sends⟩
    · intro _
      rw [State.enter, same.msg, there]
      rfl
    · intro cancelled
      cases cancelled
    · exact fun _ _ => rfl
    · exact .inl ⟨rfl, by rw [phase]; rfl⟩
    · exact fun _ => .inr (.inl mem_send_queueWork)
  case h_3 phase =>
    split_ifs at goes
    cases goes
    have engaged : turn.phase.engaged := by rw [phase]; rfl
    obtain ⟨msg, there, sends⟩ := live.msg_engaged held engaged
    refine live.enter held rfl rfl rfl rfl ?_ ?_ ?_ ?_ ?_ ?_
    · intro msg' there'
      cases there.symm.trans there'
      exact ⟨rfl, sends⟩
    · intro _
      rw [State.enter, there]
      rfl
    · intro cancelled
      cases cancelled
    · exact fun _ _ => rfl
    · exact .inl ⟨rfl, by rw [phase]; rfl⟩
    · intro waiting
      cases waiting
  case h_4 phase =>
    split_ifs at goes with runs
    cases goes
    have engaged : turn.phase.engaged := by rw [phase]; rfl
    obtain ⟨msg, there, sends⟩ := live.msg_engaged held engaged
    refine live.enter held rfl rfl rfl rfl ?_ ?_ ?_ ?_ ?_ ?_
    · intro msg' there'
      cases there.symm.trans there'
      exact ⟨rfl, sends⟩
    · intro _
      rw [State.enter, there]
      rfl
    · exact fun _ => Bool.eq_false_iff.mpr runs
    · exact fun _ _ => rfl
    · exact .inl ⟨rfl, by rw [phase]; rfl⟩
    · intro waiting
      cases waiting
  case h_5 phase =>
    cases goes
    have cancelled : s.lock.inPhase TurnPhase.isCancelled := by
      rw [held, Lock.inPhase, phase]
      rfl
    refine live.enter held rfl rfl rfl rfl ?_ ?_ ?_ ?_ ?_ ?_
    · intro msg there
      cases there
    · intro engaged
      cases engaged
    · intro cancels
      cases cancels
    · intro runs past
      rw [live.runs runs] at cancelled
      cases cancelled
    · exact .inl ⟨rfl, by rw [phase]; rfl⟩
    · intro waiting
      cases waiting
  case h_6 rc phase =>
    cases goes
    have idle : s.msg = none := by
      apply live.msg_none
      rw [held, Lock.inPhase, phase]
      rfl
    refine live.enter held rfl rfl rfl rfl ?_ ?_ ?_ ?_ ?_ ?_
    · intro msg there
      cases idle.symm.trans there
    · intro engaged
      cases engaged
    · intro cancels
      cases cancels
    · intro runs past
      have engaged := live.meant_engaged held runs past
      rw [phase] at engaged
      cases engaged
    · exact .inr ⟨rfl, rfl⟩
    · intro waiting
      cases waiting
  case h_7 rc phase =>
    cases goes
    have idle : s.msg = none := by
      apply live.msg_none
      rw [held, Lock.inPhase, phase]
      rfl
    unfold State.release
    dsimp only
    split
    · rename_i party running
      exact absurd party (live.caller turn held).1
    · constructor
      · intro turn' held'
        cases held'
      · exact live.worker
      · intro msg there
        cases idle.symm.trans there
      · intro engaged
        cases engaged
      · exact fun _ => rfl
      · intro runs past
        have engaged := live.meant_engaged held runs past
        rw [phase] at engaged
        cases engaged
      · exact live.waitAck
      · exact fun _ => .inl rfl
      · intro restarts
        have other := live.restart restarts
        rw [held] at other
        cases other
      · intro waiting
        cases waiting

/-! ## The timers -/

theorem Live.ackReceiveTimeout (live : s.Live) (fires : s.ackReceiveTimeout = some s') :
    s'.Live := by
  unfold State.ackReceiveTimeout at fires
  split_ifs at fires
  cases fires
  refine live.of_calls rfl rfl rfl ?_ ?_ ?_
  · intro waits
    cases waits
  · intro pending
    cases pending
  · exact fun _ => .inr (.inr (.inr (.inr (.inr (.inl ⟨rfl, rfl⟩)))))

theorem Live.queued (live : s.Live)
    (ackTimer : s'.ackTimer.armed = s.ackTimer.armed ∨ s'.status ≠ .waitAck)
    (delayTimer : s'.delayTimer = s.delayTimer ∨ s'.status ≠ .sendPending)
    (status : s'.status = s.status ∨ s'.status ≠ .waitAck ∧ s'.status ≠ .sendPending)
    (lock : s'.lock = s.lock) (msg : s'.msg = s.msg) (running : s'.running = s.running)
    (queue : .send ∈ s'.queue) : s'.Live := by
  apply live.of_calls lock msg running
  · rcases status with same | other
    · rcases ackTimer with timer | away
      · rw [same, timer]
        exact live.waitAck
      · exact fun waits => absurd waits away
    · exact fun waits => absurd waits other.1
  · rcases status with same | other
    · rcases delayTimer with timer | away
      · rw [same, timer]
        exact live.pending
      · exact fun pending => absurd pending away
    · exact fun pending => absurd pending other.2
  · exact fun _ => .inr (.inl queue)

theorem Live.ackReceiveQueue (live : s.Live) (fires : s.ackReceiveQueue = some s') :
    s'.Live := by
  unfold State.ackReceiveQueue at fires
  split_ifs at fires
  cases fires
  have same := SameSender.queueWork
    (s := { s with ackTimer := { s.ackTimer with firing := false } }) .send
  exact live.queued (.inl (by rw [same.ackTimer])) (.inl same.delayTimer)
    (.inl same.status) same.lock same.msg (queueWork_running _) mem_send_queueWork

theorem Live.msgTransDelayTimeout (live : s.Live) (fires : s.msgTransDelayTimeout = some s') :
    s'.Live := by
  unfold State.msgTransDelayTimeout at fires
  split at fires
  case isFalse => cases fires
  case isTrue may =>
    cases fires
    simp only [Bool.and_eq_true, Option.isNone_iff_eq_none] at may
    refine live.of_calls rfl rfl rfl ?_ ?_ ?_
    · exact live.waitAck
    · intro pending
      exact .inr (.inl (if_pos pending))
    · intro waiting
      rcases live.tended waiting with done | queued | early | pending | waits | timeout | started
      · exact .inl done
      · exact .inr (.inl queued)
      · exact .inr (.inr (.inl early))
      · exact .inr (.inr (.inr (.inl pending)))
      · exact .inr (.inr (.inr (.inr (.inl waits))))
      · exact .inr (.inr (.inr (.inr (.inr (.inl timeout)))))
      · rw [may.2] at started
        cases started.2

theorem Live.msgTransDelayGo (live : s.Live) (fires : s.msgTransDelayGo = some s') :
    s'.Live := by
  unfold State.msgTransDelayGo at fires
  split at fires
  case h_1 => cases fires
  case h_2 checked =>
    cases fires
    refine live.of_calls rfl rfl rfl ?_ ?_ ?_
    · intro waits
      cases waits
    · intro pending
      cases pending
    · exact fun _ => .inr (.inr (.inr (.inr (.inr (.inr ⟨rfl, rfl⟩)))))
  case h_3 started =>
    have pends : s.status = .sendPending → s.delayTimer.armed ∨
        (none : Option DelayStage) = some .checked ∨ s.lock.inPhase TurnPhase.isPended ∨
          restarts s.running := by
      intro pending
      rcases live.pending pending with armed | checked | gap
      · exact .inl armed
      · rw [started] at checked
        cases checked
      · exact .inr (.inr gap)
    dsimp only at fires
    split_ifs at fires with sending
    · cases fires
      have same := SameSender.queueWork
        (s := { s with delayTimer := { s.delayTimer with firing := none } }) .send
      apply live.of_calls same.lock same.msg (queueWork_running _)
      · rw [same.status, same.ackTimer]
        exact live.waitAck
      · rw [same.status, same.delayTimer]
        exact pends
      · exact fun _ => .inr (.inl mem_send_queueWork)
    · cases fires
      refine live.of_calls rfl rfl rfl ?_ ?_ ?_
      · exact live.waitAck
      · exact pends
      · intro waiting
        -- A thread that waits has its message with the sender.
        exact absurd (live.engaged (Lock.engaged_of_waiting waiting)) sending

/-! ## The receive work and the event work -/

theorem Live.stopped (live : s.Live) (away : s.status ≠ .waitAck) :
    ({ s with ackTimer := { s.ackTimer with armed := false } } : State).Live := by
  refine live.of_calls rfl rfl rfl ?_ ?_ ?_
  · exact fun waits => absurd waits away
  · exact live.pending
  · exact live.tended

theorem Live.completed (live : s.Live) (armed : Bool) (status : SendStatus) {stage : Stage}
    (ends : status ≠ .waitAck) (goes : status ≠ .sendPending) (before : isAside s.running)
    (after : isAside (some stage)) :
    ((({ s with ackTimer := { s.ackTimer with armed := armed } } : State).complete
      status).goTo stage).Live := by
  have signaled : (({ s with ackTimer := { s.ackTimer with armed := armed } } : State).complete
      status).Live := live.signaled rfl rfl rfl (complete_isDone status) ends goes
  exact signaled.aside ⟨rfl, rfl, rfl, rfl, rfl, rfl, id⟩ before after

theorem isAside_next (ready : Bool) (flag : Flag) :
    isAside (some (if ready then .recvRead flag else .recvDone)) := by
  cases ready <;> rfl

theorem Live.recvCheck (live : s.Live) {flag : Flag} {handshake : Bool}
    (here : s.running = some (.recvCheck flag))
    (goes : s.recvCheck flag handshake = some s') : s'.Live := by
  have before : isAside s.running := by rw [here]; rfl
  unfold State.recvCheck at goes
  split at goes
  · cases goes
    exact live.aside ⟨rfl, rfl, rfl, rfl, rfl, rfl, id⟩ before rfl
  · split at goes
    · cases goes
      exact live.completed s.ackTimer.armed _ (by simp) (by simp) before rfl
    · split at goes
      · obtain ⟨t, stops, rfl⟩ := Option.map_eq_some_iff.mp goes
        obtain ⟨-, rfl⟩ := stopAckReceiveTimer_eq stops
        exact live.completed false _ (by simp) (by simp) before rfl
      · split at goes
        · cases goes
          exact live.aside ⟨rfl, rfl, rfl, rfl, rfl, rfl, id⟩ before rfl
        · cases goes
          exact live.aside ⟨rfl, rfl, rfl, rfl, rfl, rfl, id⟩ before (isAside_next _ flag)

theorem Live.recvLooked (live : s.Live) {flag : Flag} {waitAck : Bool}
    (here : s.running = some (.recvLooked flag waitAck))
    (goes : s.recvLooked flag waitAck = some s') : s'.Live := by
  have before : isAside s.running := by rw [here]; rfl
  unfold State.recvLooked at goes
  dsimp only at goes
  split at goes
  · split at goes
    · obtain ⟨t, stops, rfl⟩ := Option.map_eq_some_iff.mp goes
      obtain ⟨-, rfl⟩ := stopAckReceiveTimer_eq stops
      exact live.completed false _ (by simp) (by simp) before (isAside_next _ flag)
    · cases goes
      exact live.aside ⟨rfl, rfl, rfl, rfl, rfl, rfl, id⟩ before rfl
  · split at goes
    · cases goes
      exact live.aside ⟨rfl, rfl, rfl, rfl, rfl, rfl, id⟩ before rfl
    · split at goes
      · obtain ⟨t, stops, rfl⟩ := Option.map_eq_some_iff.mp goes
        obtain ⟨-, rfl⟩ := stopAckReceiveTimer_eq stops
        have done := live.completed false .sendOk (by simp) (by simp) before
          (isAside_next (flag.has recvErrDataReady) flag)
        exact done.same ⟨rfl, rfl, rfl, rfl, rfl, rfl, id⟩ rfl
      · cases goes
        exact live.aside ⟨rfl, rfl, rfl, rfl, rfl, rfl, id⟩ before (isAside_next _ flag)

theorem Live.recvAckNckMsg (live : s.Live) {flag : Flag} {letter : Letter}
    (here : s.running = some (.recvHandle flag letter))
    (goes : s.recvAckNckMsg flag letter = some s') : s'.Live := by
  have before : isAside s.running := by rw [here]; rfl
  unfold State.recvAckNckMsg at goes
  obtain ⟨t, stops, rfl⟩ := Option.map_eq_some_iff.mp goes
  obtain ⟨-, rfl⟩ := stopAckReceiveTimer_eq stops
  dsimp only
  obtain ⟨t, chosen, same, running⟩ : ∃ t : State,
      (if isAckMsg letter.msg.body then
        ({ s with ackTimer := { s.ackTimer with armed := false } } : State).answer flag.stamp
      else { s with ackTimer := { s.ackTimer with armed := false } }) = t ∧
      ({ s with ackTimer := { s.ackTimer with armed := false } } : State).SameSender t ∧
        t.running = s.running := by
    refine ⟨_, rfl, ?_, ?_⟩
    · split_ifs <;> exact ⟨rfl, rfl, rfl, rfl, rfl, rfl, id⟩
    · split_ifs <;> rfl
  rw [chosen]
  split_ifs with waits ack
  · have done : ((({ s with ackTimer := { s.ackTimer with armed := false } } : State).complete
        .sendOk).goTo .recvDone).Live :=
      live.completed false .sendOk (by simp) (by simp) before rfl
    refine done.same ⟨same.lock, same.msg, rfl, congrArg UfcsPolicy.Completion.complete same.ack, same.ackTimer,
      same.delayTimer, same.queue⟩ rfl
  · have queued : (({ t with status := .nck } : State).queueWork .send).Live := by
      have added := SameSender.queueWork (s := { t with status := .nck }) .send
      exact live.queued (.inr (by rw [added.status]; simp))
        (.inl (added.delayTimer.trans same.delayTimer)) (.inr (by rw [added.status]; simp))
        (added.lock.trans same.lock) (added.msg.trans same.msg)
        ((queueWork_running _).trans running) mem_send_queueWork
    refine queued.aside ⟨rfl, rfl, rfl, rfl, rfl, rfl, id⟩ ?_ rfl
    rw [queueWork_running, running]
    exact before
  · have away : s.status ≠ .waitAck := fun waiting => waits (same.status.trans waiting)
    exact (live.stopped away).aside ⟨same.lock, same.msg, same.status, same.ack, same.ackTimer,
      same.delayTimer, same.queue⟩ before rfl

theorem Live.recvHandle {config : WorkerConfig} (live : s.Live) {flag : Flag} {letter : Letter}
    (here : s.running = some (.recvHandle flag letter))
    (goes : s.recvHandle config flag letter = some s') : s'.Live := by
  have before : isAside s.running := by rw [here]; rfl
  unfold State.recvHandle at goes
  split at goes
  · exact live.recvAckNckMsg here goes
  · cases goes
    refine live.aside ⟨rfl, rfl, rfl, rfl, rfl, rfl, id⟩ before ?_
    dsimp only [goTo]
    split_ifs <;> rfl

theorem Live.recvLock (live : s.Live) {letter : Letter}
    (goes : s.recvLock letter = some s') : s'.Live := by
  unfold State.recvLock at goes
  split_ifs at goes with free
  cases goes
  have none : s.msg = none := live.msg_none (not_inPhase_of_free free)
  constructor
  · intro turn held
    cases held
  · rfl
  · intro msg there
    cases none.symm.trans there
  · intro engaged
    cases engaged
  · exact fun _ => rfl
  · intro runs
    cases runs
  · intro waits
    cases waits
  · exact fun _ => .inr (.inr (.inr rfl))
  · exact fun _ => rfl
  · intro waiting
    cases waiting

theorem Live.recvRestart (live : s.Live) {letter : Letter}
    (here : s.running = some (.recvRestart letter)) (goes : s.recvRestart letter = some s') :
    s'.Live := by
  have held : s.lock = .recvWork := live.restart (by rw [here]; rfl)
  unfold State.recvRestart at goes
  split_ifs at goes
  cases goes
  have none : s.msg = none := live.msg_none (by rw [held]; rfl)
  constructor
  · intro turn held
    cases held
  · rfl
  · intro msg there
    cases none.symm.trans there
  · intro engaged
    cases engaged
  · exact fun _ => rfl
  · intro runs
    cases runs
  · intro waits
    have armed := live.waitAck waits
    rw [here] at armed
    exact .inl (armed.resolve_right (by simp [arms]))
  · exact fun _ => .inl rfl
  · intro restarts
    cases restarts
  · intro waiting
    cases waiting

theorem Live.recvStore (live : s.Live) {letter : Letter}
    (here : s.running = some (.recvStore letter)) : (s.recvStore letter).Live := by
  have same := SameSender.queueWork (s := { s with recvMsg := some letter }) .event
  exact live.aside ⟨same.lock, same.msg, same.status, same.ack, same.ackTimer, same.delayTimer,
    same.queue⟩ (by rw [here]; rfl) rfl

theorem Live.recvGet (live : s.Live) (here : s.running = some .recvGet) : s.recvGet.Live := by
  have before : isAside s.running := by rw [here]; rfl
  unfold State.recvGet
  split
  · exact live.aside ⟨rfl, rfl, rfl, rfl, rfl, rfl, id⟩ before rfl
  · exact live.aside ⟨rfl, rfl, rfl, rfl, rfl, rfl, id⟩ before rfl

theorem Live.eventGet {config : WorkerConfig} (live : s.Live)
    (here : s.running = some .eventGet) : (s.eventGet config).Live := by
  have before : isAside s.running := by rw [here]; rfl
  unfold State.eventGet
  split
  · exact live.aside ⟨rfl, rfl, rfl, rfl, rfl, rfl, id⟩ before rfl
  · split_ifs
    · exact live.aside ⟨rfl, rfl, rfl, rfl, rfl, rfl, id⟩ before rfl
    · exact live.aside ⟨rfl, rfl, rfl, rfl, rfl, rfl, id⟩ before rfl
    · exact live.aside ⟨rfl, rfl, rfl, rfl, rfl, rfl, id⟩ before rfl

theorem Live.eventReply (live : s.Live) {letter : Letter} {nck : Bool}
    (here : s.running = some (.eventReply letter nck))
    (goes : s.eventReply letter nck false = some s') : s'.Live := by
  have before : isAside s.running := by rw [here]; rfl
  cases goes
  unfold State.replied
  split_ifs
  · exact live.aside ⟨rfl, rfl, rfl, rfl, rfl, rfl, id⟩ before rfl
  · exact live.aside ⟨rfl, rfl, rfl, rfl, rfl, rfl, id⟩ before rfl

/-! ## The send work -/

theorem apart_of_early {running : Option Stage} (early : sendsEarly running) :
    restarts running = false ∧ arms running = false ∧ replies running = false := by
  rcases running with _ | stage
  · cases early
  · cases stage <;> first | exact ⟨rfl, rfl, rfl⟩ | cases early

theorem Live.ends (live : s.Live) (before : sendsEarly s.running) (after : s'.running = none)
    (lock : s'.lock = s.lock) (delayTimer : s'.delayTimer = s.delayTimer)
    (msg : ∀ msg, s'.msg = some msg → s.msg.isSome ∧ msg.body.isAckNckMsg = false)
    (kept : s.msg.isSome → s'.msg.isSome)
    (waitAck : s'.status = .waitAck → s'.ackTimer.armed)
    (pending : s'.status = .sendPending → s.status = .sendPending)
    (tended : s.lock.inPhase TurnPhase.isWaiting → s'.Tended) : s'.Live := by
  constructor
  · rw [lock]
    exact live.caller
  · rw [after]
    rfl
  · rw [lock]
    intro msg' there
    obtain ⟨some, sends⟩ := msg msg' there
    obtain ⟨was, here⟩ := Option.isSome_iff_exists.mp some
    exact ⟨(live.msg was here).1, sends⟩
  · rw [lock]
    exact fun engaged => kept (live.engaged engaged)
  · rw [sendRuns, after]
    intro runs
    cases runs
  · rw [sendRuns, after]
    intro runs
    cases runs
  · exact fun waits => .inl (waitAck waits)
  · intro pends
    rw [delayTimer, lock, after]
    rcases live.pending (pending pends) with armed | checked | gap | restarts
    · exact .inl armed
    · exact .inr (.inl checked)
    · exact .inr (.inr (.inl gap))
    · rw [(apart_of_early before).1] at restarts
      cases restarts
  · rw [after]
    intro restarts
    cases restarts
  · rw [lock]
    exact tended

theorem Live.goesOn (live : s.Live) (same : s.SameSender s') (before : sendsEarly s.running)
    (after : sendsEarly s'.running) (engaged : s.lock.inPhase TurnPhase.engaged) : s'.Live := by
  obtain ⟨restarts, arms, -⟩ := apart_of_early before
  obtain ⟨restarts', -, replies'⟩ := apart_of_early after
  have runs : s.sendRuns := sendRuns_iff.mpr (.inl before)
  constructor
  · rw [same.lock]
    exact live.caller
  · exact replies'
  · rw [same.msg, same.lock]
    exact live.msg
  · rw [same.msg, same.lock]
    exact live.engaged
  · rw [same.lock]
    exact fun _ => live.runs runs
  · rw [same.lock]
    exact fun _ _ => engaged
  · rw [same.status, same.ackTimer]
    intro waits
    rcases live.waitAck waits with armed | arming
    · exact .inl armed
    · rw [arms] at arming
      cases arming
  · rw [same.status, same.delayTimer, same.lock, restarts', ← restarts]
    exact live.pending
  · rw [restarts']
    simp
  · exact fun _ => .inr (.inr (.inl after))

theorem Live.armed_of_early (live : s.Live) (early : sendsEarly s.running)
    (waits : s.status = .waitAck) : s.ackTimer.armed := by
  rcases live.waitAck waits with armed | arming
  · exact armed
  · rw [(apart_of_early early).2.1] at arming
    cases arming

theorem Live.sendCheck (live : s.Live) (here : s.running = some .sendCheck) :
    s.sendCheck.Live := by
  have before : sendsEarly s.running := by rw [here]; rfl
  unfold State.sendCheck
  split
  · rename_i none
    refine live.ends before rfl rfl rfl ?_ ?_ (live.armed_of_early before) id ?_
    · intro msg there
      cases none.symm.trans there
    · exact id
    · intro waiting
      have there := live.engaged (Lock.engaged_of_waiting waiting)
      rw [none] at there
      cases there
  · rename_i msg there
    obtain ⟨engaged, sends⟩ := live.msg msg there
    have ends : s.status = .sendPending ∨ s.status = .waitAck → s.finish.Live := by
      intro status
      refine live.ends before rfl rfl rfl ?_ id (live.armed_of_early before) id ?_
      · intro msg' there'
        exact ⟨by rw [there]; rfl, (live.msg msg' there').2⟩
      · intro _
        rcases status with pending | waits
        · exact .inr (.inr (.inr (.inl pending)))
        · exact .inr (.inr (.inr (.inr (.inl waits))))
    rw [if_neg (by rw [sends]; simp)]
    split
    · exact live.goesOn ⟨rfl, rfl, rfl, rfl, rfl, rfl, id⟩ before rfl engaged
    · exact live.goesOn ⟨rfl, rfl, rfl, rfl, rfl, rfl, id⟩ before rfl engaged
    · exact live.goesOn ⟨rfl, rfl, rfl, rfl, rfl, rfl, id⟩ before rfl engaged
    · exact live.goesOn ⟨rfl, rfl, rfl, rfl, rfl, rfl, id⟩ before rfl engaged
    · exact live.goesOn ⟨rfl, rfl, rfl, rfl, rfl, rfl, id⟩ before rfl engaged
    · rename_i status
      exact ends (.inl status)
    · rename_i status
      exact ends (.inr status)
    · exact live.goesOn ⟨rfl, rfl, rfl, rfl, rfl, rfl, id⟩ before rfl engaged

theorem packMsg_isAckNckMsg {config : Config} {msg after : Msg} {len : Nat} {frame : List U8}
    (packed : packMsg config msg len = .ok (frame, after)) :
    after.body.isAckNckMsg = msg.body.isAckNckMsg := by
  unfold packMsg at packed
  split at packed
  · cases packed
  · split at packed
    · cases packed
    · rename_i bytes body written
      cases packed
      revert written
      cases msg.body with
      | ctrl command =>
        intro written
        cases written
        rfl
      | data command length data =>
        intro written
        simp only [packBody] at written
        split_ifs at written
        cases written
        rfl
      | vendor vndId length data =>
        intro written
        simp only [packBody] at written
        split_ifs at written
        cases written
        rfl

theorem Live.gives (live : s.Live) (before : sendsEarly s.running) (lock : s'.lock = s.lock)
    (delayTimer : s'.delayTimer = s.delayTimer) (status : SendStatus)
    (msg : ∀ msg, s'.msg = some msg → s.msg.isSome ∧ msg.body.isAckNckMsg = false)
    (kept : s.msg.isSome → s'.msg.isSome) (ends : status ≠ .waitAck)
    (goes : status ≠ .sendPending) : (s'.complete status).finish.Live :=
  live.ends before rfl lock delayTimer msg kept (fun waits => absurd waits ends)
    (fun pends => absurd pends goes) fun _ => .inl (complete_isDone status)

theorem Live.sendAttempt {config : Config} (live : s.Live) {ackNck wrote : Bool}
    (here : s.running = some (.sendAttempt ackNck))
    (goes : s.sendAttempt config ackNck wrote = some s') : s'.Live := by
  have before : sendsEarly s.running := by rw [here]; rfl
  have own : ∀ msg, s.msg = some msg → s.msg.isSome ∧ msg.body.isAckNckMsg = false :=
    fun msg there => ⟨by rw [there]; rfl, (live.msg msg there).2⟩
  unfold State.sendAttempt at goes
  split at goes
  · obtain ⟨t, stops, rfl⟩ := Option.map_eq_some_iff.mp goes
    obtain ⟨-, rfl⟩ := stopAckReceiveTimer_eq stops
    refine live.gives before ?_ ?_ .retryOver ?_ ?_ (by simp) (by simp)
    · rfl
    · rfl
    · exact own
    · exact id
  · obtain ⟨msg, there, rfl⟩ := Option.map_eq_some_iff.mp goes
    obtain ⟨engaged, sends⟩ := live.msg msg there
    have here' : s.msg.isSome := by rw [there]; rfl
    split
    · exact live.gives before rfl rfl .sendFail own id (by simp) (by simp)
    · rename_i frame after packed
      have sends' : after.body.isAckNckMsg = false := (packMsg_isAckNckMsg packed).trans sends
      have own' : ∀ msg', some after = some msg' → s.msg.isSome ∧
          msg'.body.isAckNckMsg = false := by
        intro msg' same
        cases same
        exact ⟨here', sends'⟩
      dsimp only
      split_ifs
      · -- The packed message takes the place of the message, and the work goes on with it.
        have packs : ({ s with msg := some after } : State).Live := by
          constructor
          · exact live.caller
          · exact live.worker
          · exact fun msg' same => ⟨engaged, (own' msg' same).2⟩
          · exact fun _ => rfl
          · exact live.runs
          · exact live.meant
          · exact live.waitAck
          · exact live.pending
          · exact live.restart
          · exact live.tended
        exact packs.goesOn ⟨rfl, rfl, rfl, rfl, rfl, rfl, id⟩ before rfl engaged
      · refine live.gives before ?_ ?_ .sendFail ?_ ?_ (by simp) (by simp)
        · rfl
        · rfl
        · exact own'
        · exact fun _ => rfl

theorem Live.sendWritten (live : s.Live) {ackNck : Bool}
    (here : s.running = some (.sendWritten ackNck)) : (s.sendWritten ackNck).Live := by
  have before : sendsEarly s.running := by rw [here]; rfl
  have runs : s.sendRuns := sendRuns_iff.mpr (.inl before)
  have own : ∀ msg, s.msg = some msg → s.msg.isSome ∧ msg.body.isAckNckMsg = false :=
    fun msg there => ⟨by rw [there]; rfl, (live.msg msg there).2⟩
  unfold State.sendWritten
  split_ifs
  · exact live.gives before rfl rfl .sendOk own id (by simp) (by simp)
  · constructor
    · exact live.caller
    · rfl
    · exact live.msg
    · exact live.engaged
    · exact fun _ => live.runs runs
    · exact fun _ _ => live.meant runs (by rw [here]; rfl)
    · exact fun _ => .inr rfl
    · intro pending
      cases pending
    · intro restarts
      cases restarts
    · exact fun _ => .inr (.inr (.inr (.inr (.inl rfl))))

theorem Live.sendArm (live : s.Live) (here : s.running = some .sendArm) : s.sendArm.Live := by
  constructor
  · exact live.caller
  · rfl
  · exact live.msg
  · exact live.engaged
  · intro runs
    cases runs
  · intro runs
    cases runs
  · exact fun _ => .inl rfl
  · intro pending
    rcases live.pending pending with armed | checked | gap | restarts
    · exact .inl armed
    · exact .inr (.inl checked)
    · exact .inr (.inr (.inl gap))
    · rw [here] at restarts
      cases restarts
  · intro restarts
    cases restarts
  · intro waiting
    rcases live.tended waiting with done | queued | early | others
    · exact .inl done
    · exact .inr (.inl queued)
    · rw [here] at early
      cases early
    · exact .inr (.inr (.inr others))

theorem Live.sendSignal (live : s.Live) (here : s.running = some .sendSignal) :
    s.sendSignal.Live := by
  have before : sendsEarly s.running := by rw [here]; rfl
  have own : ∀ msg, s.msg = some msg → s.msg.isSome ∧ msg.body.isAckNckMsg = false :=
    fun msg there => ⟨by rw [there]; rfl, (live.msg msg there).2⟩
  exact live.ends before rfl rfl rfl own id (live.armed_of_early before) id
    fun _ => .inl (complete_isDone (s := s) .sendOk)

/-! ## Every step -/

theorem Live.start (live : s.Live) (careful : s.running = none → s.queue.head? = some .send →
    s.lock.inPhase TurnPhase.isCancelled = false) (goes : s.start = some s') : s'.Live := by
  unfold State.start at goes
  split at goes
  · rename_i work queue idle queued
    cases goes
    have head : s.queue.head? = some work := by rw [queued]; rfl
    cases work with
    | send =>
      constructor
      · exact live.caller
      · rfl
      · exact live.msg
      · exact live.engaged
      · exact fun _ => careful idle head
      · intro runs past
        cases past
      · intro waits
        rcases live.waitAck waits with armed | arming
        · exact .inl armed
        · rw [idle] at arming
          cases arming
      · intro pending
        rcases live.pending pending with armed | checked | gap | restarts
        · exact .inl armed
        · exact .inr (.inl checked)
        · exact .inr (.inr (.inl gap))
        · rw [idle] at restarts
          cases restarts
      · intro restarts
        cases restarts
      · exact fun _ => .inr (.inr (.inl rfl))
    | recv | event =>
      have kept : Work.send ∈ s.queue → .send ∈ queue := by
        rw [queued]
        simp
      exact live.aside ⟨rfl, rfl, rfl, rfl, rfl, rfl, kept⟩ (by rw [idle]; rfl) rfl
  · cases goes

theorem Live.workStep {config : WorkerConfig} (live : s.Live) {oracle : Oracle}
    (careful : s.Sends (.work oracle)) (goes : s.workStep config oracle = some s') : s'.Live := by
  unfold State.workStep at goes
  unfold Sends at careful
  split at goes
  case h_1 here =>
    apply live.start _ goes
    intro idle
    rw [here] at careful
    exact careful
  case h_2 here => cases goes; exact live.recvGet here
  case h_3 flag here => exact live.recvCheck here goes
  case h_4 flag waitAck here => exact live.recvLooked here goes
  case h_5 flag here =>
    cases goes
    have before : isAside s.running := by rw [here]; rfl
    unfold State.recvRead
    split
    · exact live.aside ⟨rfl, rfl, rfl, rfl, rfl, rfl, id⟩ before rfl
    · exact live.aside ⟨rfl, rfl, rfl, rfl, rfl, rfl, id⟩ before rfl
  case h_6 flag letter here => exact live.recvHandle here goes
  case h_7 letter here => exact live.recvLock goes
  case h_8 letter here => exact live.recvRestart here goes
  case h_9 letter here => cases goes; exact live.recvStore here
  case h_10 here =>
    cases goes
    have before : isAside s.running := by rw [here]; rfl
    split_ifs
    · exact live.aside ⟨rfl, rfl, rfl, rfl, rfl, rfl, id⟩ before rfl
    · exact live.aside ⟨rfl, rfl, rfl, rfl, rfl, rfl, id⟩ before rfl
  case h_11 here => cases goes; exact live.eventGet here
  case h_12 letter nck here =>
    rw [here] at careful
    dsimp only at careful
    rw [careful] at goes
    exact live.eventReply here goes
  case h_13 => cases goes
  case h_14 letter here =>
    cases goes
    have before : isAside s.running := by rw [here]; rfl
    unfold State.eventAlloc
    split_ifs
    · exact live.aside ⟨rfl, rfl, rfl, rfl, rfl, rfl, id⟩ before rfl
    · exact live.aside ⟨rfl, rfl, rfl, rfl, rfl, rfl, id⟩ before rfl
  case h_15 here => cases goes; exact live.sendCheck here
  case h_16 here => cases goes; exact live.sendSignal here
  case h_17 ackNck here => exact live.sendAttempt here goes
  case h_18 ackNck here => cases goes; exact live.sendWritten here
  case h_19 here => cases goes; exact live.sendArm here

theorem Live.step {config : WorkerConfig} (live : s.Live) {move : Move} (careful : s.Sends move)
    (taken : step config s move = some s') : s'.Live := by
  cases move with
  | setErrorFlag bits =>
    cases taken
    unfold State.setErrorFlag
    split_ifs
    · exact live.same ⟨rfl, rfl, rfl, rfl, rfl, rfl, id⟩ rfl
    · exact live
  | clrErrorFlag => cases taken; exact live.same ⟨rfl, rfl, rfl, rfl, rfl, rfl, id⟩ rfl
  | msgHandler => cases taken; exact live.same (.queueWork .recv) (queueWork_running _)
  | handshake => cases taken; exact live.same ⟨rfl, rfl, rfl, rfl, rfl, rfl, id⟩ rfl
  | eventReset => cases taken; exact live.eventReset careful
  | exitSmWork => cases taken; exact live.exitSmWork
  | work oracle => exact live.workStep careful taken
  | callerLocks thread msg => exact live.callerLocks taken
  | sendMsg =>
    simp only [UfcsWorker.step] at taken
    split at taken
    · rename_i turn held
      exact live.sendMsg held taken
    · cases taken
  | ackReceiveTimeout => exact live.ackReceiveTimeout taken
  | ackReceiveQueue => exact live.ackReceiveQueue taken
  | msgTransDelayTimeout => exact live.msgTransDelayTimeout taken
  | msgTransDelayGo => exact live.msgTransDelayGo taken

theorem Live.initial : ({} : State).Live := by
  constructor
  · intro turn held
    cases held
  · rfl
  · intro msg there
    cases there
  · intro engaged
    cases engaged
  · intro runs
    cases runs
  · intro runs
    cases runs
  · intro waits
    cases waits
  · intro pending
    cases pending
  · intro restarts
    cases restarts
  · intro waiting
    cases waiting

end State

end VendorModules.UfcsWorker
