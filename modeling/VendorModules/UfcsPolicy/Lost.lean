import VendorModules.UfcsPolicy.Clients

/-! A step that is not careful can lose a failure: the call that it concerns goes on to return
success. -/

namespace VendorModules.UfcsPolicy

open Function Lib State

variable {s s' : State} {hardRetry : Bool}

abbrev Leads (hardRetry : Bool) : State → State → Prop :=
  Relation.ReflTransGen (StepOf (step hardRetry) fun _ _ => True)

theorem dishonest_of_unread {n : Nat} (unread : s.Unread n) (clear : 0 ≤ s.err)
    (unanswered : n ∉ s.answered) : ∃ last, Leads hardRetry s last ∧ ¬last.Honest := by
  obtain ⟨⟨request, pending, plain⟩, settled⟩ := unread
  -- from where the call is woken
  have reads : ∀ between : State, between.phase n = .woken request → between.err = s.err →
      between.answered = s.answered → ∃ last, Leads hardRetry between last ∧ ¬last.Honest := by
    intro between woken err answered
    have returns : step hardRetry between (.read n) =
        some ({ between with
          extReqLock := none
          handshakeSuccess := between.handshakeSuccess && request ≠ Request.exitUfcsMode }.ret n request
            between.err) := by
      simp only [step, clientStep, woken, if_neg plain]
    refine ⟨_, .single ⟨.read n, trivial, returns⟩, ?_⟩
    intro honest
    have record := honest { call := n, request := request, rc := between.err }
      (List.mem_append_right _ (List.mem_singleton_self _)) plain (err.symm ▸ clear)
    have among : n ∈ between.answered := record
    exact unanswered (answered ▸ among)
  cases here : s.phase n with
  | woken request' =>
    rw [here] at pending
    cases pending
    exact reads s here rfl rfl
  | waiting request' =>
    rw [here] at pending
    cases pending
    have isDone : s.requestAck.isDone = true := by
      rcases settled with ⟨r, woken⟩ | isDone
      · rw [here] at woken
        cases woken
      · exact isDone
    have wakes : step hardRetry s (.wake n) =
        some ({ s with requestAck := s.requestAck.take }.goto n (.woken request)) := by
      simp only [step, clientStep, here, isDone, if_true]
    obtain ⟨last, leads, lie⟩ := reads
      ({ s with requestAck := s.requestAck.take }.goto n (.woken request))
      (update_self n (Phase.woken request) s.phase) rfl rfl
    exact ⟨last, .head ⟨.wake n, trivial, wakes⟩ leads, lie⟩
  | absent =>
    rw [here] at pending
    cases pending
  | called request' =>
    rw [here] at pending
    cases pending
  | holding request' =>
    rw [here] at pending
    cases pending
  | done =>
    rw [here] at pending
    cases pending

theorem dishonest_of_careless {move : Move} (taken : step hardRetry s move = some s')
    (careless : ¬Careful s move) : ∃ last, Leads hardRetry s' last ∧ ¬last.Honest := by
  have task : smStep hardRetry s move = some s' := by
    cases move with
    | wakeSm => exact taken
    | fetch refuseFails => exact taken
    | sent ok => exact taken
    | receive busy infoSent pinged => exact taken
    | _ => exact absurd trivial careless
  obtain ⟨calls, outcome⟩ := smStep_after task
  unfold Careful at careless
  cases ends : ending s move with
  | nothing =>
    rw [ends] at careless
    exact absurd trivial careless
  | clears =>
    rw [ends] at careless outcome
    cases outcome with
    | cleared err ack answered =>
      simp only [CarefulEnding, not_forall] at careless
      obtain ⟨n, ⟨pending, settled⟩, unanswered⟩ := careless
      apply dishonest_of_unread (n := n)
      · refine ⟨?_, ?_⟩
        · unfold Pending
          rw [calls.phase]
          exact pending
        · rw [calls.phase, ack]
          exact settled
      · omega
      · rw [answered]
        exact unanswered
  | succeeds err =>
    rw [ends] at careless outcome
    cases outcome with
    | succeeded err_eq ack answered =>
      simp only [CarefulEnding, not_forall, not_or] at careless
      obtain ⟨n, pending, clear, foreign, unanswered⟩ := careless
      apply dishonest_of_unread (n := n)
      · refine ⟨?_, Or.inr ack⟩
        unfold Pending
        rw [calls.phase]
        exact pending
      · rw [err_eq]
        exact clear
      · rw [answered]
        intro among
        rcases List.mem_append.mp among with own | before
        · exact foreign (by simpa using own)
        · exact unanswered before

/-- In runs whose steps are all careful, a call returns success only on the adapter's answer to
its own request; a step that is not careful can be followed by such a false success. -/
theorem success_answered (hardRetry : Bool) :
    (∀ s, Reachable Initial (StepOf (step hardRetry) Careful) s → s.Honest) ∧
    ∀ s move s', Reachable Initial (StepOf (step hardRetry) fun _ _ => True) s →
      step hardRetry s move = some s' → ¬Careful s move →
        ∃ last, Leads hardRetry s' last ∧ ¬last.Honest := by
  constructor
  · intro s reached
    exact (State.Inv.of_reachable reached).honest
  · intro s move s' _ taken careless
    exact dishonest_of_careless taken careless

/-- After a handshake, a request for a voltage is refused, and a ping arrives before its client
reads that. -/
def refusedMoves : List Move :=
  [.call 0 .handshake, .lockExt 0, .submit 0, .wakeSm, .fetch false, .fetch false,
    .push .recvAck true, .receive false true true, .wake 0, .read 0,
    .call 1 .pdoSet, .lockExt 1, .submit 1, .fetch false, .fetch false, .sent true,
    .push .recvRefuse true, .receive false true true, .push .recvPing true, .fetch false,
    .wake 1, .read 1]

theorem refusedMoves_run :
    (play (step false) (fun _ _ => True) {} refusedMoves).isSome := by
  decide +kernel

def refused : State := (play (step false) (fun _ _ => True) {} refusedMoves).get refusedMoves_run

/-- The refused request returns success. -/
theorem refused_succeeds :
    ¬∀ (hardRetry : Bool) (s : State),
      Reachable Initial (StepOf (step hardRetry) fun _ _ => True) s → s.Honest := by
  intro honest
  have start : Reachable Initial (StepOf (step false) fun _ _ => True) {} := .start rfl
  have reached : Reachable Initial (StepOf (step false) fun _ _ => True) refused :=
    play_reachable start refusedMoves_run
  have success : ({ call := 1, request := .pdoSet, rc := 0 } : Returned) ∈ refused.returned := by
    decide +kernel
  have answered := honest false refused reached _ success (by decide) (by decide)
  exact absurd answered (by decide +kernel)

end VendorModules.UfcsPolicy
