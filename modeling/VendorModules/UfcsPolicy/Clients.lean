import VendorModules.UfcsPolicy.Engine
import Mathlib.Logic.Relation

/-! What a client's call returns, over all runs in which no outcome is lost before it is read. -/

namespace VendorModules.UfcsPolicy

open Function Lib

namespace Phase

def pending : Phase → Option Request
  | .waiting request | .woken request => some request
  | _ => none

/-- The call holds `ext_req_lock`. -/
def holds : Phase → Bool
  | .holding _ | .waiting _ | .woken _ => true
  | _ => false

end Phase

namespace State

def Pending (s : State) (n : Nat) : Prop :=
  ∃ request, (s.phase n).pending = some request ∧ request ≠ .handshake

def Unread (s : State) (n : Nat) : Prop :=
  s.Pending n ∧ ((∃ request, s.phase n = .woken request) ∨ s.requestAck.isDone = true)

def Honest (s : State) : Prop :=
  ∀ r ∈ s.returned, r.request ≠ .handshake → 0 ≤ r.rc → r.call ∈ s.answered

end State

inductive Ending
  | nothing
  /-- The error is cleared for the next event. -/
  | clears
  /-- A handler ends with the adapter's answer, with this error. -/
  | succeeds (err : Int)

def ending (s : State) : Move → Ending
  | .fetch refuseFails =>
    match s.events with
    | [] => .nothing
    | event :: _ =>
      if s.curr = .idel ∧ ¬((idelNext event.type).isNone ∧
          (event.msg && event.type ≠ .recvPing && refuseFails) = true) then .clears
      else .nothing
  | .sent ok => if s.sm = .sendingExit ∧ ok = true then .succeeds s.err else .nothing
  | .receive busy infoSent pinged =>
    match s.sm, s.events with
    | .receiving x softReset, event :: _ =>
      if react x softReset event busy infoSent = .answered ∧ x ≠ .startCableDetect then
        .succeeds (if x = .verify then 0 else s.err)
      else .nothing
    | .handshaking _, event :: _ =>
      if event.type = .recvAck ∧ pinged = true then .succeeds s.err else .nothing
    | _, _ => .nothing
  | _ => .nothing

def CarefulEnding (s : State) : Ending → Prop
  | .nothing => True
  | .clears => ∀ n, s.Unread n → n ∈ s.answered
  | .succeeds err => ∀ n, s.Pending n → 0 ≤ err → s.serving = some n ∨ n ∈ s.answered

def Careful (s : State) (move : Move) : Prop := CarefulEnding s (ending s move)

/-! What steps do to the outcome. -/

structure State.SameCalls (s s' : State) : Prop where
  phase : s'.phase = s.phase
  returned : s'.returned = s.returned
  extReqLock : s'.extReqLock = s.extReqLock

inductive State.Outcome (s s' : State) : Ending → Prop
  | same (err : s'.err = s.err) (ack : s'.requestAck = s.requestAck)
      (answered : s'.answered = s.answered) : Outcome s s' .nothing
  | failed (err : s'.err < 0) (answered : s'.answered = s.answered) : Outcome s s' .nothing
  | cleared (err : s'.err = 0) (ack : s'.requestAck = s.requestAck)
      (answered : s'.answered = s.answered) : Outcome s s' .clears
  | succeeded {err : Int} (err_eq : s'.err = err) (ack : s'.requestAck.isDone = true)
      (answered : s'.answered = s.serving.toList ++ s.answered) : Outcome s s' (.succeeds err)

namespace State

variable {s s' : State}

def After (s s' : State) (ending : Ending) : Prop := s.SameCalls s' ∧ s.Outcome s' ending

theorem After.same (phase : s'.phase = s.phase) (returned : s'.returned = s.returned)
    (extReqLock : s'.extReqLock = s.extReqLock) (err : s'.err = s.err)
    (ack : s'.requestAck = s.requestAck) (answered : s'.answered = s.answered) :
    s.After s' .nothing :=
  ⟨⟨phase, returned, extReqLock⟩, .same err ack answered⟩

theorem After.failed {err : Int} (negative : err < 0) (phase : s'.phase = s.phase)
    (returned : s'.returned = s.returned) (extReqLock : s'.extReqLock = s.extReqLock)
    (err_eq : s'.err = err) (answered : s'.answered = s.answered) : s.After s' .nothing :=
  ⟨⟨phase, returned, extReqLock⟩, .failed (err_eq ▸ negative) answered⟩

theorem After.of_freeEvent {ending : Ending} (after : s.freeEvent.After s' ending) :
    s.After s' ending := by
  obtain ⟨calls, outcome⟩ := after
  refine ⟨⟨calls.phase, calls.returned, calls.extReqLock⟩, ?_⟩
  cases outcome with
  | same err ack answered => exact .same err ack answered
  | failed err answered => exact .failed err answered
  | cleared err ack answered => exact .cleared err ack answered
  | succeeded err ack answered => exact .succeeded err ack answered

theorem EIO_neg : EIO < 0 := by decide

theorem EAGAIN_neg : EAGAIN < 0 := by decide

theorem EINVAL_neg : EINVAL < 0 := by decide

theorem EPROTO_neg : EPROTO < 0 := by decide

theorem hardReset_after : s.After s.freeEvent.hardReset.back .nothing :=
  .failed EIO_neg rfl rfl rfl rfl rfl

theorem fatal_after (x : Exchange) : s.After (s.fatal x) .nothing := by
  unfold fatal
  split
  · exact .same rfl rfl rfl rfl rfl rfl
  · exact .failed EIO_neg rfl rfl rfl rfl rfl

theorem succeed_isDone : s.succeed.requestAck.isDone = true := by
  simp [succeed, complete, Completion.complete, Completion.isDone]

theorem settle_after (x : Exchange) (settled : x ≠ .startCableDetect) :
    s.After (s.settle x) (.succeeds (if x = .verify then 0 else s.err)) := by
  have same : s.SameCalls (s.settle x) := by
    cases x <;> exact ⟨rfl, rfl, rfl⟩
  refine ⟨same, ?_⟩
  cases x with
  | startCableDetect => exact absurd rfl settled
  | verify => exact .succeeded rfl succeed_isDone rfl
  | _ => exact .succeeded rfl succeed_isDone rfl

theorem idelHandle_after (event : Event) (refuseFails : Bool) :
    s.After (s.idelHandle event refuseFails).back
      (if (idelNext event.type).isNone ∧
        (event.msg && event.type ≠ .recvPing && refuseFails) = true then .nothing else .clears) := by
  unfold idelHandle
  cases next : idelNext event.type with
  | some state => exact ⟨⟨rfl, rfl, rfl⟩, .cleared rfl rfl rfl⟩
  | none =>
    simp only [Option.isNone_none, true_and]
    split
    · exact .failed EIO_neg rfl rfl rfl rfl rfl
    · exact ⟨⟨rfl, rfl, rfl⟩, .cleared rfl rfl rfl⟩

theorem handle_after (event : Event) : s.After (s.handle event) .nothing := by
  unfold handle
  simp only
  split
  · split
    · exact .failed EINVAL_neg rfl rfl rfl rfl rfl
    · exact .same rfl rfl rfl rfl rfl rfl
  · split
    · exact .failed EAGAIN_neg rfl rfl rfl rfl rfl
    · exact .failed EIO_neg rfl rfl rfl rfl rfl
    · exact .same rfl rfl rfl rfl rfl rfl
    · exact .same rfl rfl rfl rfl rfl rfl
    · exact .same rfl rfl rfl rfl rfl rfl
    · exact .same rfl rfl rfl rfl rfl rfl

theorem receive_after (x : Exchange) (softReset : Bool) (reaction : Reaction) :
    s.After (s.receive x softReset reaction)
      (if reaction = .answered ∧ x ≠ .startCableDetect then
        .succeeds (if x = .verify then 0 else s.err) else .nothing) := by
  cases reaction with
  | again => exact .same rfl rfl rfl rfl rfl rfl
  | resend => exact .same rfl rfl rfl rfl rfl rfl
  | answered =>
    by_cases cable : x = .startCableDetect
    · rw [if_neg (by simp [cable]), cable]
      exact .same rfl rfl rfl rfl rfl rfl
    · rw [if_pos ⟨rfl, cable⟩]
      exact .of_freeEvent (settle_after x cable)
  | giveUp =>
    refine ⟨⟨rfl, rfl, rfl⟩, .failed ?_ rfl⟩
    show (if x.isFunction then EPROTO else EAGAIN) < 0
    split <;> decide
  | fatal => exact .of_freeEvent (fatal_after x)
  | softReset =>
    unfold receive
    simp only
    split
    · exact .failed EPROTO_neg rfl rfl rfl rfl rfl
    · exact .same rfl rfl rfl rfl rfl rfl

theorem receiveHandshake_after (hardRetry : Bool) (retryCount : Nat) (event : Event)
    (pinged : Bool) :
    s.After (s.receiveHandshake hardRetry retryCount event pinged)
      (if event.type = .recvAck ∧ pinged = true then .succeeds s.err else .nothing) := by
  have quiet : ¬(event.type = .recvAck ∧ pinged = true) →
      (if event.type = .recvAck ∧ pinged = true then Ending.succeeds s.err else .nothing) =
        .nothing := fun unacked => if_neg unacked
  unfold receiveHandshake
  split
  · rename_i ack
    cases pinged with
    | false =>
      rw [quiet (by simp)]
      exact hardReset_after
    | true =>
      have acked : (if event.type = .recvAck ∧ true = true then Ending.succeeds s.err
          else .nothing) = .succeeds s.err := if_pos ⟨ack, rfl⟩
      rw [acked]
      exact ⟨⟨rfl, rfl, rfl⟩, .succeeded rfl succeed_isDone rfl⟩
  · rename_i nck
    rw [quiet (by simp [nck])]
    split
    · exact .same rfl rfl rfl rfl rfl rfl
    · exact hardReset_after
  · rename_i timeout
    rw [quiet (by simp [timeout])]
    split
    · exact .same rfl rfl rfl rfl rfl rfl
    · exact hardReset_after
  · rename_i reset
    rw [quiet (by simp [reset])]
    exact .same rfl rfl rfl rfl rfl rfl
  · rename_i not_ack not_nck not_timeout not_reset
    rw [quiet fun acked => not_ack acked.1]
    split
    · exact hardReset_after
    · exact .same rfl rfl rfl rfl rfl rfl

end State

open State

variable {s s' : State} {hardRetry : Bool}

theorem smStep_after {move : Move} (taken : smStep hardRetry s move = some s') :
    s.After s' (ending s move) := by
  cases move with
  | wakeSm =>
    simp only [smStep] at taken
    split at taken <;> cases taken
    exact .same rfl rfl rfl rfl rfl rfl
  | fetch refuseFails =>
    simp only [smStep] at taken
    split at taken
    · cases events : s.events with
      | nil =>
        simp only [events] at taken
        split at taken <;> cases taken
        simp only [ending, events]
        exact .failed EIO_neg rfl rfl rfl rfl rfl
      | cons event rest =>
        simp only [events] at taken
        simp only [ending, events]
        split at taken
        · rename_i idle
          split at taken <;> cases taken
          have after := idelHandle_after (s := s) event refuseFails
          split at after
          · rename_i refused
            rw [if_neg fun both => both.2 refused]
            exact after
          · rename_i kept
            rw [if_pos ⟨idle, kept⟩]
            exact after
        · rename_i busy
          cases taken
          rw [if_neg fun both => busy both.1]
          exact handle_after event
    · cases taken
  | sent ok =>
    simp only [smStep] at taken
    split at taken
    · rename_i exits
      cases taken
      cases ok with
      | false =>
        simp only [ending, exits]
        exact .failed EIO_neg rfl rfl rfl rfl rfl
      | true =>
        simp only [ending, exits]
        exact ⟨⟨rfl, rfl, rfl⟩, .succeeded rfl succeed_isDone rfl⟩
    · rename_i x softReset sends
      cases taken
      have quiet : ending s (.sent ok) = .nothing := by simp [ending, sends]
      rw [quiet]
      split
      · exact .same rfl rfl rfl rfl rfl rfl
      · exact fatal_after x
    · cases taken
  | receive busy infoSent pinged =>
    simp only [smStep] at taken
    split at taken
    · rename_i x softReset event rest receives events
      cases taken
      simp only [ending, receives, events]
      exact receive_after x softReset _
    · rename_i retryCount event rest shakes events
      cases taken
      simp only [ending, shakes, events]
      exact receiveHandshake_after hardRetry retryCount event pinged
    · rename_i receives events
      split at taken <;> cases taken
      simp only [ending, receives, events]
      exact .failed EIO_neg rfl rfl rfl rfl rfl
    · rename_i shakes events
      split at taken <;> cases taken
      simp only [ending, shakes, events]
      exact .failed EIO_neg rfl rfl rfl rfl rfl
    · cases taken
  | _ => cases taken

/-! The invariant. -/

structure State.Inv (s : State) : Prop where
  lock : ∀ n, (s.phase n).holds = true → s.extReqLock = some n
  unread : ∀ n, s.Unread n → s.err < 0 ∨ n ∈ s.answered
  honest : s.Honest

theorem holds_of_pending {phase : Phase} {request : Request}
    (pending : phase.pending = some request) : phase.holds = true := by
  cases phase <;> first | rfl | cases pending

namespace State.Inv

variable (inv : s.Inv)

include inv

theorem after_careful {ending : Ending} (after : s.After s' ending)
    (careful : CarefulEnding s ending) : s'.Inv := by
  obtain ⟨calls, outcome⟩ := after
  have answered : ∀ n ∈ s.answered, n ∈ s'.answered := by
    intro n among
    cases outcome with
    | same _ _ same => exact same ▸ among
    | failed _ same => exact same ▸ among
    | cleared _ _ same => exact same ▸ among
    | succeeded _ _ more => exact more ▸ List.mem_append_right _ among
  refine ⟨?_, ?_, ?_⟩
  · rw [calls.phase, calls.extReqLock]
    exact inv.lock
  · rintro n ⟨⟨request, pending, plain⟩, settled⟩
    rw [calls.phase] at pending settled
    cases outcome with
    | same err ack same =>
      rw [ack] at settled
      rw [err, same]
      exact inv.unread n ⟨⟨request, pending, plain⟩, settled⟩
    | failed err same => exact Or.inl err
    | cleared err ack same =>
      rw [ack] at settled
      exact Or.inr (answered n (careful n ⟨⟨request, pending, plain⟩, settled⟩))
    | @succeeded err err_eq ack more =>
      by_cases failed : err < 0
      · exact Or.inl (err_eq ▸ failed)
      · right
        rcases careful n ⟨request, pending, plain⟩ (by omega) with served | before
        · rw [more, served]
          exact List.mem_append_left _ (List.mem_singleton_self n)
        · exact answered n before
  · intro r returned plain success
    rw [calls.returned] at returned
    exact answered r.call (inv.honest r returned plain success)

theorem goto {n : Nat} {phase : Phase} (unlocked : phase.holds = false)
    (returned : s'.returned = s.returned) (err : s'.err = s.err)
    (ack : s'.requestAck = s.requestAck) (answered : s'.answered = s.answered)
    (lock : s'.extReqLock = s.extReqLock) (phase_eq : s'.phase = update s.phase n phase) :
    s'.Inv := by
  have others : ∀ m, (s'.phase m).holds = true → s'.phase m = s.phase m := by
    intro m holds
    rcases eq_or_ne m n with rfl | other
    · rw [phase_eq, update_self, unlocked] at holds
      cases holds
    · rw [phase_eq, update_of_ne other]
  refine ⟨?_, ?_, ?_⟩
  · intro m holds
    rw [lock]
    exact inv.lock m (others m holds ▸ holds)
  · rintro m ⟨⟨request, pending, plain⟩, settled⟩
    have same := others m (holds_of_pending pending)
    rw [same] at pending settled
    rw [ack] at settled
    rw [err, answered]
    exact inv.unread m ⟨⟨request, pending, plain⟩, settled⟩
  · intro r among plain success
    rw [returned] at among
    rw [answered]
    exact inv.honest r among plain success

theorem goto_holder {n : Nat} {phase : Phase} (owner : s.extReqLock = none ∨ s.extReqLock = some n)
    (lock : s'.extReqLock = some n) (phase_eq : s'.phase = update s.phase n phase)
    (unread : ∀ request, phase.pending = some request → request ≠ .handshake →
      (∃ r, phase = .woken r) ∨ s'.requestAck.isDone = true → s'.err < 0 ∨ n ∈ s'.answered)
    (returned : s'.returned = s.returned) (answered : s'.answered = s.answered) : s'.Inv := by
  have alone : ∀ m, m ≠ n → (s'.phase m).holds = false := by
    intro m other
    rw [phase_eq, update_of_ne other, Bool.eq_false_iff]
    intro holds
    have owned := inv.lock m holds
    rcases owner with free | mine
    · rw [free] at owned
      cases owned
    · rw [mine] at owned
      exact other (Option.some.inj owned).symm
  refine ⟨?_, ?_, ?_⟩
  · intro m holds
    rcases eq_or_ne m n with rfl | other
    · exact lock
    · rw [alone m other] at holds
      cases holds
  · rintro m ⟨⟨request, pending, plain⟩, settled⟩
    rcases eq_or_ne m n with rfl | other
    · rw [phase_eq, update_self] at pending settled
      exact unread request pending plain settled
    · have holds := holds_of_pending pending
      rw [alone m other] at holds
      cases holds
  · intro r among plain success
    rw [returned] at among
    rw [answered]
    exact inv.honest r among plain success

theorem ret {n : Nat} {request : Request} {rc : Int} (state : s'.phase = update s.phase n .done)
    (returned : s'.returned = s.returned ++ [{ call := n, request := request, rc := rc }])
    (true_rc : request ≠ .handshake → 0 ≤ rc → n ∈ s.answered) (answered : s'.answered = s.answered)
    (lock : s'.extReqLock = s.extReqLock ∨ s.extReqLock = some n ∧ s'.extReqLock = none)
    (unread : ∀ m, m ≠ n → s'.Unread m → s'.err < 0 ∨ m ∈ s'.answered) : s'.Inv := by
  refine ⟨?_, ?_, ?_⟩
  · intro m holds
    rcases eq_or_ne m n with rfl | other
    · rw [state, update_self] at holds
      cases holds
    · rw [state, update_of_ne other] at holds
      have owned := inv.lock m holds
      rcases lock with same | ⟨mine, -⟩
      · rw [same, owned]
      · rw [mine] at owned
        exact absurd (Option.some.inj owned).symm other
  · intro m unread_m
    rcases eq_or_ne m n with rfl | other
    · obtain ⟨⟨request', pending, -⟩, -⟩ := unread_m
      rw [state, update_self] at pending
      cases pending
    · exact unread m other unread_m
  · intro r among plain success
    rw [returned] at among
    rw [answered]
    rcases List.mem_append.mp among with old | new
    · exact inv.honest r old plain success
    · rw [List.mem_singleton.mp new] at plain success ⊢
      exact true_rc plain success

theorem none_pending {n m : Nat} (owner : s.extReqLock = some n) (other : m ≠ n) :
    (s.phase m).pending = none := by
  rw [Option.eq_none_iff_forall_ne_some]
  intro request pending
  have owned := inv.lock m (holds_of_pending pending)
  rw [owner] at owned
  exact other (Option.some.inj owned).symm

end State.Inv

theorem State.Inv.clientStep (inv : s.Inv) {move : Move} (taken : clientStep s move = some s') :
    s'.Inv := by
  cases move with
  | call n request =>
    simp only [UfcsPolicy.clientStep] at taken
    split at taken
    · rename_i absent
      split at taken <;> cases taken
      · exact inv.goto rfl rfl rfl rfl rfl rfl rfl
      · refine inv.ret rfl rfl (fun _ success => absurd success (by decide)) rfl (Or.inl rfl) ?_
        rintro m other ⟨⟨request', pending, plain⟩, settled⟩
        have same : (s.ret n request EINVAL).phase m = s.phase m := update_of_ne other _ _
        rw [same] at pending settled
        exact inv.unread m ⟨⟨request', pending, plain⟩, settled⟩
    · cases taken
  | lockExt n =>
    simp only [UfcsPolicy.clientStep] at taken
    split at taken
    · rename_i request called free
      cases taken
      split
      · exact inv.goto_holder (Or.inl free) rfl rfl (fun _ pending => nomatch pending) rfl rfl
      · exact inv.goto_holder (Or.inl free) rfl rfl (fun _ pending => nomatch pending) rfl rfl
    · cases taken
  | submit n =>
    simp only [UfcsPolicy.clientStep] at taken
    split at taken
    · cases taken
    split at taken
    · rename_i request holding
      have owner : s.extReqLock = some n := inv.lock n (by rw [holding]; rfl)
      split at taken <;> cases taken
      · refine inv.ret rfl rfl (fun _ success => absurd success (by decide)) rfl
          (Or.inr ⟨owner, rfl⟩) ?_
        rintro m other ⟨⟨request', pending, -⟩, -⟩
        have same : (({ s with requestAck := {}, extReqLock := none } : State).ret n request
          EINVAL).phase m = s.phase m := update_of_ne other _ _
        rw [same, inv.none_pending owner other] at pending
        cases pending
      · refine inv.goto_holder (Or.inr owner) owner rfl ?_ rfl rfl
        rintro request' - - (⟨r, woken⟩ | settled)
        · cases woken
        · cases settled
    · cases taken
  | wake n =>
    simp only [UfcsPolicy.clientStep] at taken
    split at taken
    · rename_i request waiting
      have owner : s.extReqLock = some n := inv.lock n (by rw [waiting]; rfl)
      split at taken
      · rename_i settled
        cases taken
        refine inv.goto_holder (Or.inr owner) owner rfl ?_ rfl rfl
        intro request' pending plain _
        cases pending
        apply inv.unread n
        refine ⟨⟨request, ?_, plain⟩, Or.inr settled⟩
        rw [waiting]
        rfl
      · cases taken
    · cases taken
  | read n =>
    simp only [UfcsPolicy.clientStep] at taken
    split at taken
    · rename_i request woken
      have owner : s.extReqLock = some n := inv.lock n (by rw [woken]; rfl)
      cases taken
      refine inv.ret rfl rfl ?_ rfl (Or.inr ⟨owner, rfl⟩) ?_
      · intro plain success
        rw [if_neg plain] at success
        have unread : s.Unread n := by
          refine ⟨⟨request, ?_, plain⟩, Or.inl ⟨request, woken⟩⟩
          rw [woken]
          rfl
        exact (inv.unread n unread).resolve_left (by omega)
      · rintro m other ⟨⟨request', pending, -⟩, -⟩
        have same : update s.phase n .done m = s.phase m := update_of_ne other _ _
        change (update s.phase n .done m).pending = some request' at pending
        rw [same, inv.none_pending owner other] at pending
        cases pending
    · cases taken
  | _ => cases taken

theorem State.Inv.step (inv : s.Inv) {move : Move} (careful : Careful s move)
    (taken : step hardRetry s move = some s') : s'.Inv := by
  cases move with
  | push type msg =>
    simp only [UfcsPolicy.step] at taken
    split at taken <;> cases taken
    exact inv.after_careful (.same rfl rfl rfl rfl rfl rfl) trivial
  | forceExit =>
    cases taken
    exact inv.after_careful (.failed EIO_neg rfl rfl rfl rfl rfl) trivial
  | sourceHardReset =>
    cases taken
    exact inv.after_careful (.failed EIO_neg rfl rfl rfl rfl rfl) trivial
  | call n request =>
    have client : UfcsPolicy.clientStep s (.call n request) = some s' := taken
    exact inv.clientStep client
  | lockExt n =>
    have client : UfcsPolicy.clientStep s (.lockExt n) = some s' := taken
    exact inv.clientStep client
  | submit n =>
    have client : UfcsPolicy.clientStep s (.submit n) = some s' := taken
    exact inv.clientStep client
  | wake n =>
    have client : UfcsPolicy.clientStep s (.wake n) = some s' := taken
    exact inv.clientStep client
  | read n =>
    have client : UfcsPolicy.clientStep s (.read n) = some s' := taken
    exact inv.clientStep client
  | wakeSm =>
    have task : smStep hardRetry s (.wakeSm) = some s' := taken
    exact inv.after_careful (smStep_after task) careful
  | fetch refuseFails =>
    have task : smStep hardRetry s (.fetch refuseFails) = some s' := taken
    exact inv.after_careful (smStep_after task) careful
  | sent ok =>
    have task : smStep hardRetry s (.sent ok) = some s' := taken
    exact inv.after_careful (smStep_after task) careful
  | receive busy infoSent pinged =>
    have task : smStep hardRetry s (.receive busy infoSent pinged) = some s' := taken
    exact inv.after_careful (smStep_after task) careful

theorem State.Inv.of_reachable
    (reached : Reachable Initial (StepOf (UfcsPolicy.step hardRetry) Careful) s) : s.Inv := by
  induction reached with
  | start initial =>
    cases initial
    refine ⟨?_, ?_, ?_⟩
    · exact fun n holds => nomatch holds
    · rintro n ⟨⟨request, pending, -⟩, -⟩
      cases pending
    · exact fun r returned => nomatch returned
  | next before taken ih =>
    obtain ⟨move, careful, taken⟩ := taken
    exact ih.step careful taken

end VendorModules.UfcsPolicy
