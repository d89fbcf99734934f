import VendorModules.UfcsWorker.Waits

/-!
# Whether a successful send was acknowledged

The status of a turn becomes a success by an answer from the wire only, which the worker relates
to the frame that was written last.
-/

namespace VendorModules.UfcsWorker

open Ufcs Lib

/-! ## The wire -/

def Written (wire : List WireEvent) (number : Nat) : Prop :=
  ∃ later quiet earlier, wire = later ++ .wrote number quiet :: earlier ∧
    ∀ event ∈ later, event.isWrote = false

def Acknowledged (wire : List WireEvent) (number : Nat) : Prop :=
  ∃ later, ∃ quiet : Bool, ∃ earlier stamp, wire = later ++ .wrote number quiet :: earlier ∧
    (∀ event ∈ later, event.isWrote = false) ∧ .answered stamp ∈ later ∧
      (quiet → stamp = earlier.countP WireEvent.isWrote + 1)

def Young (wire : List WireEvent) (stamp : Nat) : Prop :=
  ∀ later number earlier, wire = later ++ .wrote number true :: earlier →
    (∀ event ∈ later, event.isWrote = false) → stamp = earlier.countP WireEvent.isWrote + 1

theorem Written.answered {wire : List WireEvent} {number : Nat} (written : Written wire number)
    (stamp : Nat) : Written (.answered stamp :: wire) number := by
  obtain ⟨later, quiet, earlier, rfl, none⟩ := written
  refine ⟨.answered stamp :: later, quiet, earlier, rfl, ?_⟩
  intro event member
  rcases List.mem_cons.mp member with rfl | member
  · rfl
  · exact none event member

theorem Acknowledged.answered {wire : List WireEvent} {number : Nat}
    (acknowledged : Acknowledged wire number) (stamp : Nat) :
    Acknowledged (.answered stamp :: wire) number := by
  obtain ⟨later, quiet, earlier, stamp', rfl, none, member, young⟩ := acknowledged
  refine ⟨.answered stamp :: later, quiet, earlier, stamp', rfl, ?_, .tail _ member, young⟩
  intro event member
  rcases List.mem_cons.mp member with rfl | member
  · rfl
  · exact none event member

theorem Written.acknowledged {wire : List WireEvent} {number stamp : Nat}
    (written : Written wire number) (young : Young wire stamp) :
    Acknowledged (.answered stamp :: wire) number := by
  obtain ⟨later, quiet, earlier, same, none⟩ := written
  refine ⟨.answered stamp :: later, quiet, earlier, stamp, ?_, ?_, List.mem_cons_self, ?_⟩
  · rw [same]
    rfl
  · intro event member
    rcases List.mem_cons.mp member with rfl | member
    · rfl
    · exact none event member
  · intro isQuiet
    subst isQuiet
    exact young later number earlier same none

theorem Young.answered {wire : List WireEvent} {stamp : Nat} (young : Young wire stamp)
    (stamp' : Nat) : Young (.answered stamp' :: wire) stamp := by
  intro later number earlier same none
  cases later with
  | nil => cases same
  | cons event later =>
    cases same
    exact young later number earlier rfl fun event member => none event (.tail _ member)

theorem young_now (wire : List WireEvent) : Young wire (wire.countP WireEvent.isWrote) := by
  intro later number earlier same none
  have zero : later.countP WireEvent.isWrote = 0 := by
    rw [List.countP_eq_zero]
    intro event member
    rw [none event member]
    simp
  rw [same, List.countP_append, zero, List.countP_cons]
  simp [WireEvent.isWrote]

/-! ## The invariant -/

def handledFlag : Option Stage → List Flag
  | some (.recvCheck flag) | some (.recvLooked flag _) | some (.recvRead flag)
  | some (.recvHandle flag _) => [flag]
  | _ => []

def writesFrame : Option Stage → Bool
  | some (.sendAttempt _) | some (.sendWritten _) => true
  | _ => false

def hasWritten : Option Stage → Bool
  | some (.sendWritten _) => true
  | _ => false

def repliesFrame : Option Stage → Bool
  | some (.sendAttempt ackNck) | some (.sendWritten ackNck) => ackNck
  | _ => false

def TurnPhase.succeeds : TurnPhase → Bool
  | .concluded (.ok _) | .pended (.ok _) => true
  | _ => false

def TurnPhase.owns (phase : TurnPhase) : Bool := phase.engaged || phase.isConcluded

namespace State

variable (s : State)

def flags : List Flag := s.fifo ++ handledFlag s.running

def OfTurn (holds : List WireEvent → Nat → Prop) : Prop :=
  ∃ turn, s.lock = .sender turn ∧ turn.phase.owns ∧ holds s.wire turn.number

structure Proven : Prop where
  young : ∀ flag ∈ s.flags, Young s.wire flag.stamp
  waits : s.status = .waitAck → s.OfTurn Written
  looked : answers s.running → s.OfTurn Written
  written : hasWritten s.running → s.OfTurn Written
  ok : s.status = .sendOk → s.OfTurn Acknowledged ∧ writesFrame s.running = false
  plain : repliesFrame s.running = false
  success : ∀ turn, s.lock = .sender turn → turn.phase.succeeds → Acknowledged s.wire turn.number

variable {s s' : State}

theorem OfTurn.same {holds : List WireEvent → Nat → Prop} (ofTurn : s.OfTurn holds)
    (lock : s'.lock = s.lock) (wire : s'.wire = s.wire) : s'.OfTurn holds := by
  obtain ⟨turn, held, owns, holds⟩ := ofTurn
  exact ⟨turn, lock.trans held, owns, wire ▸ holds⟩

structure Still (running : Option Stage) : Prop where
  answers : answers running = false
  writesFrame : writesFrame running = false
  hasWritten : hasWritten running = false
  repliesFrame : repliesFrame running = false

theorem Proven.goes (proven : s.Proven) (lock : s'.lock = s.lock) (wire : s'.wire = s.wire)
    (status : s'.status = s.status ∨ s'.status ≠ .waitAck ∧ s'.status ≠ .sendOk)
    (flags : ∀ flag ∈ s'.flags, flag ∈ s.flags)
    (running : s'.running = s.running ∨ Still s'.running) : s'.Proven := by
  constructor
  · intro flag member
    rw [wire]
    exact proven.young flag (flags flag member)
  · intro waits
    rcases status with same | other
    · exact (proven.waits (same ▸ waits)).same lock wire
    · exact absurd waits other.1
  · intro looks
    rcases running with same | still
    · exact (proven.looked (same ▸ looks)).same lock wire
    · rw [still.answers] at looks
      cases looks
  · intro written
    rcases running with same | still
    · exact (proven.written (same ▸ written)).same lock wire
    · rw [still.hasWritten] at written
      cases written
  · intro ok
    rcases status with same | other
    · obtain ⟨acknowledged, apart⟩ := proven.ok (same ▸ ok)
      refine ⟨acknowledged.same lock wire, ?_⟩
      rcases running with same | still
      · exact same ▸ apart
      · exact still.writesFrame
    · exact absurd ok other.2
  · rcases running with same | still
    · exact same ▸ proven.plain
    · exact still.repliesFrame
  · rw [lock, wire]
    exact proven.success

theorem Proven.turns (proven : s.Proven) (wire : s'.wire = s.wire)
    (running : s'.running = s.running) (fifo : s'.fifo = s.fifo)
    (kept : (s'.status = s.status ∧ ∀ holds, s.OfTurn holds → s'.OfTurn holds) ∨
      s'.status ≠ .waitAck ∧ s'.status ≠ .sendOk ∧ answers s.running = false ∧
        hasWritten s.running = false)
    (success : ∀ turn, s'.lock = .sender turn → turn.phase.succeeds →
      Acknowledged s.wire turn.number) : s'.Proven := by
  constructor
  · rw [State.flags, fifo, running, wire]
    exact proven.young
  · intro waits
    rcases kept with ⟨same, ofTurn⟩ | other
    · exact ofTurn _ (proven.waits (same ▸ waits))
    · exact absurd waits other.1
  · rw [running]
    intro looks
    rcases kept with ⟨same, ofTurn⟩ | other
    · exact ofTurn _ (proven.looked looks)
    · rw [other.2.2.1] at looks
      cases looks
  · rw [running]
    intro written
    rcases kept with ⟨same, ofTurn⟩ | other
    · exact ofTurn _ (proven.written written)
    · rw [other.2.2.2] at written
      cases written
  · intro ok
    rw [running]
    rcases kept with ⟨same, ofTurn⟩ | other
    · obtain ⟨acknowledged, apart⟩ := proven.ok (same ▸ ok)
      exact ⟨ofTurn _ acknowledged, apart⟩
    · exact absurd ok other.2.1
  · rw [running]
    exact proven.plain
  · rw [wire]
    exact success

/-! ## The turns -/

theorem none_of_away (away : ∀ turn, s.lock = .sender turn → turn.phase.owns = false)
    {holds : List WireEvent → Nat → Prop} (ofTurn : s.OfTurn holds) : False := by
  obtain ⟨turn, held, owns, -⟩ := ofTurn
  rw [away turn held] at owns
  cases owns

theorem Proven.callerLocks (proven : s.Proven) {thread : Nat} {msg : Msg}
    (locks : s.callerLocks thread msg = some s') : s'.Proven := by
  unfold State.callerLocks at locks
  split_ifs at locks with may
  cases locks
  simp only [Bool.and_eq_true] at may
  have away : ∀ turn, s.lock = .sender turn → turn.phase.owns = false := by
    intro turn held
    rw [held] at may
    cases may.1
  refine proven.turns rfl rfl rfl (.inl ⟨rfl, ?_⟩) ?_
  · exact fun holds ofTurn => (none_of_away away ofTurn).elim
  · intro turn held succeeds
    cases held
    cases succeeds

theorem Proven.enter {turn : Turn} {phase : TurnPhase} (proven : s.Proven)
    (held : s.lock = .sender turn) (wire : s'.wire = s.wire) (running : s'.running = s.running)
    (fifo : s'.fifo = s.fifo) (status : s'.status = s.status)
    (lock : s'.lock = .sender { turn with phase := phase })
    (owns : turn.phase.owns → phase.owns)
    (success : phase.succeeds → turn.phase.succeeds ∨ s.status = .sendOk) : s'.Proven := by
  refine proven.turns wire running fifo (.inl ⟨status, ?_⟩) ?_
  · intro holds ofTurn
    obtain ⟨turn', held', owns', holds'⟩ := ofTurn
    cases held.symm.trans held'
    exact ⟨_, lock, owns owns', wire ▸ holds'⟩
  · intro turn' held' succeeds
    cases lock.symm.trans held'
    rcases success succeeds with already | ok
    · exact proven.success turn held already
    · obtain ⟨⟨turn', held', -, acknowledged⟩, -⟩ := proven.ok ok
      cases held.symm.trans held'
      exact acknowledged

theorem result_ok {status : SendStatus} {rc : Unit} (ok : status.result = .ok rc) :
    status = .sendOk := by
  cases status <;> first | rfl | cases ok

theorem Live.hasWritten_engaged (live : s.Live) {turn : Turn} (held : s.lock = .sender turn)
    (written : hasWritten s.running) : turn.phase.engaged := by
  have past : s.sendRuns ∧ checks s.running = false := by
    revert written
    unfold hasWritten sendRuns checks
    split <;> simp_all
  exact live.meant_engaged held past.1 past.2

theorem Proven.sendMsg (proven : s.Proven) (live : s.Live) {turn : Turn}
    (held : s.lock = .sender turn)
    (careful : s.lock.inPhase TurnPhase.isConcluded → answers s.running = false)
    (goes : s.sendMsg turn = some s') : s'.Proven := by
  unfold State.sendMsg at goes
  split at goes
  case h_1 phase =>
    cases goes
    refine proven.enter held rfl rfl rfl rfl rfl ?_ ?_
    · rw [phase]
      exact fun _ => rfl
    · intro succeeds
      cases succeeds
  case h_2 phase =>
    cases goes
    refine proven.enter held ?_ ?_ ?_ ?_ rfl ?_ ?_
    · exact (queueWork_kept .send).1
    · exact queueWork_running .send
    · exact (queueWork_kept .send).2
    · exact (SameSender.queueWork .send).status
    · exact fun _ => rfl
    · intro succeeds
      cases succeeds
  case h_3 phase =>
    split_ifs at goes
    cases goes
    refine proven.enter held rfl rfl rfl rfl rfl ?_ ?_
    · exact fun _ => rfl
    · intro succeeds
      cases succeeds
  case h_4 phase =>
    split_ifs at goes
    cases goes
    refine proven.enter held rfl rfl rfl rfl rfl ?_ ?_
    · exact fun _ => rfl
    · intro succeeds
      cases succeeds
  case h_5 phase =>
    cases goes
    refine proven.enter held rfl rfl rfl rfl rfl ?_ ?_
    · exact fun _ => rfl
    · intro succeeds
      right
      cases rc : s.status.result with
      | error errno =>
        rw [rc] at succeeds
        cases succeeds
      | ok value => exact result_ok rc
  case h_6 rc phase =>
    cases goes
    have concluded : s.lock.inPhase TurnPhase.isConcluded := by
      rw [held, Lock.inPhase, phase]
      rfl
    have apart : hasWritten s.running = false := by
      rw [Bool.eq_false_iff]
      intro written
      have engaged := live.hasWritten_engaged held written
      rw [phase] at engaged
      cases engaged
    refine proven.turns rfl rfl rfl (.inr ⟨?_, ?_, careful concluded, apart⟩) ?_
    · intro same
      cases same
    · intro same
      cases same
    · intro turn' held' succeeds
      cases held'
      apply proven.success turn held
      rw [phase]
      cases rc with
      | ok value => rfl
      | error errno => cases succeeds
  case h_7 rc phase =>
    cases goes
    unfold State.release
    dsimp only
    split
    · rename_i party running
      exact absurd party (live.caller turn held).1
    · refine proven.turns rfl rfl rfl (.inl ⟨rfl, ?_⟩) ?_
      · intro holds ofTurn
        refine (none_of_away (s := s) ?_ ofTurn).elim
        intro turn' held'
        cases held.symm.trans held'
        rw [phase]
        rfl
      · intro turn' held'
        cases held'

/-! ## The works -/

theorem mem_flags (fifo : s'.fifo = s.fifo)
    (handled : ∀ flag ∈ handledFlag s'.running, flag ∈ handledFlag s.running) :
    ∀ flag ∈ s'.flags, flag ∈ s.flags := by
  intro flag member
  rcases List.mem_append.mp member with waiting | member
  · exact List.mem_append_left _ (fifo ▸ waiting)
  · exact List.mem_append_right _ (handled flag member)

theorem mem_flags_of_none (fifo : s'.fifo = s.fifo) (handled : handledFlag s'.running = []) :
    ∀ flag ∈ s'.flags, flag ∈ s.flags := by
  apply mem_flags fifo
  rw [handled]
  simp

theorem Proven.answered (proven : s.Proven) {stamp : Nat} (young : Young s.wire stamp)
    (lock : s'.lock = s.lock) (wire : s'.wire = .answered stamp :: s.wire)
    (status : s'.status = s.status ∨ s'.status = .sendOk ∧ s.OfTurn Written)
    (flags : ∀ flag ∈ s'.flags, flag ∈ s.flags) (still : Still s'.running) : s'.Proven := by
  constructor
  · intro flag member
    rw [wire]
    exact (proven.young flag (flags flag member)).answered stamp
  · intro waits
    rcases status with same | ⟨ok, -⟩
    · obtain ⟨turn, held, owns, written⟩ := proven.waits (same ▸ waits)
      exact ⟨turn, lock.trans held, owns, wire ▸ written.answered stamp⟩
    · cases ok.symm.trans waits
  · intro looks
    rw [still.answers] at looks
    cases looks
  · intro written
    rw [still.hasWritten] at written
    cases written
  · intro ok
    refine ⟨?_, still.writesFrame⟩
    rcases status with same | ⟨-, turn, held, owns, written⟩
    · obtain ⟨⟨turn, held, owns, acknowledged⟩, -⟩ := proven.ok (same ▸ ok)
      exact ⟨turn, lock.trans held, owns, wire ▸ acknowledged.answered stamp⟩
    · exact ⟨turn, lock.trans held, owns, wire ▸ written.acknowledged young⟩
  · exact still.repliesFrame
  · rw [lock, wire]
    exact fun turn held succeeds => (proven.success turn held succeeds).answered stamp

theorem Proven.unowned (proven : s.Proven) (lock : ∀ turn, s'.lock ≠ .sender turn)
    (wire : s'.wire = s.wire) (waits : s'.status ≠ .waitAck) (ok : s'.status ≠ .sendOk)
    (flags : ∀ flag ∈ s'.flags, flag ∈ s.flags) (still : Still s'.running) : s'.Proven := by
  constructor
  · intro flag member
    rw [wire]
    exact proven.young flag (flags flag member)
  · exact fun same => absurd same waits
  · intro looks
    rw [still.answers] at looks
    cases looks
  · intro written
    rw [still.hasWritten] at written
    cases written
  · exact fun same => absurd same ok
  · exact still.repliesFrame
  · exact fun turn held => absurd held (lock turn)

theorem Proven.recvCheck (proven : s.Proven) {flag : Flag} {handshake : Bool}
    (here : s.running = some (.recvCheck flag))
    (goes : s.recvCheck flag handshake = some s') : s'.Proven := by
  have other : SendStatus.retryOver ≠ .waitAck ∧ SendStatus.retryOver ≠ .sendOk := by simp
  unfold State.recvCheck at goes
  split at goes
  · cases goes
    exact proven.goes rfl rfl (.inl rfl) (mem_flags_of_none rfl rfl) (.inr ⟨rfl, rfl, rfl, rfl⟩)
  · split at goes
    · cases goes
      exact proven.goes rfl rfl (.inr other) (mem_flags_of_none rfl rfl)
        (.inr ⟨rfl, rfl, rfl, rfl⟩)
    · split at goes
      · obtain ⟨t, stops, rfl⟩ := Option.map_eq_some_iff.mp goes
        obtain ⟨-, rfl⟩ := stopAckReceiveTimer_eq stops
        exact proven.goes rfl rfl (.inr other) (mem_flags_of_none rfl rfl)
          (.inr ⟨rfl, rfl, rfl, rfl⟩)
      · have same : ∀ stage : Stage, handledFlag (some stage) = [flag] →
            ∀ flag ∈ (s.goTo stage).flags, flag ∈ s.flags := by
          intro stage handles
          refine mem_flags rfl ?_
          rw [here, goTo, handles]
          exact fun _ member => member
        split at goes
        · cases goes
          constructor
          · exact fun flag' member => proven.young flag' (same _ rfl flag' member)
          · exact proven.waits
          · exact fun looks => proven.waits (of_decide_eq_true looks)
          · intro written
            cases written
          · exact fun ok => ⟨(proven.ok ok).1, rfl⟩
          · rfl
          · exact proven.success
        · cases goes
          split_ifs
          · exact proven.goes rfl rfl (.inl rfl) (same _ rfl) (.inr ⟨rfl, rfl, rfl, rfl⟩)
          · exact proven.goes rfl rfl (.inl rfl) (mem_flags_of_none rfl rfl)
              (.inr ⟨rfl, rfl, rfl, rfl⟩)

theorem Proven.recvLooked (proven : s.Proven) {flag : Flag} {waitAck : Bool}
    (here : s.running = some (.recvLooked flag waitAck))
    (goes : s.recvLooked flag waitAck = some s') : s'.Proven := by
  have other : SendStatus.retryOver ≠ .waitAck ∧ SendStatus.retryOver ≠ .sendOk := by simp
  have handled : handledFlag s.running = [flag] := by rw [here]; rfl
  have young : Young s.wire flag.stamp := by
    apply proven.young
    exact List.mem_append_right _ (by rw [handled]; exact List.mem_singleton.mpr rfl)
  unfold State.recvLooked at goes
  dsimp only at goes
  obtain ⟨next, chosen, still, kept⟩ : ∃ next : Stage,
      (if flag.has recvErrDataReady then Stage.recvRead flag else .recvDone) = next ∧
        Still (some next) ∧ ∀ flag' ∈ handledFlag (some next), flag' ∈ [flag] := by
    refine ⟨_, rfl, ?_, ?_⟩
    · split_ifs <;> exact ⟨rfl, rfl, rfl, rfl⟩
    · split_ifs
      · exact fun _ member => member
      · simp [handledFlag]
  rw [chosen] at goes
  rw [← handled] at kept
  split at goes
  · split at goes
    · obtain ⟨t, stops, rfl⟩ := Option.map_eq_some_iff.mp goes
      obtain ⟨-, rfl⟩ := stopAckReceiveTimer_eq stops
      exact proven.goes rfl rfl (.inr other) (mem_flags rfl kept) (.inr still)
    · cases goes
      exact proven.goes rfl rfl (.inl rfl) (mem_flags_of_none rfl rfl)
        (.inr ⟨rfl, rfl, rfl, rfl⟩)
  · split at goes
    · cases goes
      refine proven.goes rfl rfl (.inl rfl) (mem_flags rfl ?_) (.inr ⟨rfl, rfl, rfl, rfl⟩)
      rw [handled]
      exact fun _ member => member
    · split at goes
      · rename_i saw
        obtain ⟨t, stops, rfl⟩ := Option.map_eq_some_iff.mp goes
        obtain ⟨-, rfl⟩ := stopAckReceiveTimer_eq stops
        have ofTurn : s.OfTurn Written := proven.looked (by rw [here]; exact saw)
        exact proven.answered young rfl rfl (.inr ⟨rfl, ofTurn⟩) (mem_flags rfl kept) still
      · cases goes
        exact proven.answered young rfl rfl (.inl rfl) (mem_flags rfl kept) still

theorem Proven.recvAckNckMsg (proven : s.Proven) {flag : Flag} {letter : Letter}
    (here : s.running = some (.recvHandle flag letter))
    (goes : s.recvAckNckMsg flag letter = some s') : s'.Proven := by
  have handled : handledFlag s.running = [flag] := by rw [here]; rfl
  have young : Young s.wire flag.stamp := by
    apply proven.young
    exact List.mem_append_right _ (by rw [handled]; exact List.mem_singleton.mpr rfl)
  unfold State.recvAckNckMsg at goes
  obtain ⟨t, stops, rfl⟩ := Option.map_eq_some_iff.mp goes
  obtain ⟨-, rfl⟩ := stopAckReceiveTimer_eq stops
  dsimp only
  by_cases ack : isAckMsg letter.msg.body
  · simp only [if_pos ack]
    split_ifs with waits
    · exact proven.answered young rfl rfl (.inr ⟨rfl, proven.waits waits⟩)
        (mem_flags_of_none rfl rfl) ⟨rfl, rfl, rfl, rfl⟩
    · exact proven.answered young rfl rfl (.inl rfl) (mem_flags_of_none rfl rfl)
        ⟨rfl, rfl, rfl, rfl⟩
  · simp only [if_neg ack]
    split_ifs with waits
    · refine proven.goes ?_ ?_ (.inr ?_) (mem_flags_of_none ?_ rfl) (.inr ⟨rfl, rfl, rfl, rfl⟩)
      · exact (SameSender.queueWork _).lock
      · exact (queueWork_kept _).1
      · rw [goTo, (SameSender.queueWork _).status]
        simp
      · exact (queueWork_kept _).2
    · exact proven.goes rfl rfl (.inl rfl) (mem_flags_of_none rfl rfl)
        (.inr ⟨rfl, rfl, rfl, rfl⟩)

theorem Proven.recvHandle {config : WorkerConfig} (proven : s.Proven) {flag : Flag}
    {letter : Letter} (here : s.running = some (.recvHandle flag letter))
    (goes : s.recvHandle config flag letter = some s') : s'.Proven := by
  unfold State.recvHandle at goes
  split at goes
  · exact proven.recvAckNckMsg here goes
  · cases goes
    split_ifs
    · exact proven.goes rfl rfl (.inl rfl) (mem_flags_of_none rfl rfl)
        (.inr ⟨rfl, rfl, rfl, rfl⟩)
    · exact proven.goes rfl rfl (.inl rfl) (mem_flags_of_none rfl rfl)
        (.inr ⟨rfl, rfl, rfl, rfl⟩)

theorem Proven.recvLock (proven : s.Proven) {letter : Letter}
    (goes : s.recvLock letter = some s') : s'.Proven := by
  unfold State.recvLock at goes
  split_ifs at goes
  cases goes
  apply proven.unowned
  · simp [goTo]
  · rfl
  · simp [goTo]
  · simp [goTo]
  · exact mem_flags_of_none rfl rfl
  · exact ⟨rfl, rfl, rfl, rfl⟩

theorem Proven.recvRestart (proven : s.Proven) (live : s.Live) {letter : Letter}
    (here : s.running = some (.recvRestart letter)) (goes : s.recvRestart letter = some s') :
    s'.Proven := by
  have held : s.lock = .recvWork := live.restart (by rw [here]; rfl)
  have away : ∀ holds, ¬s.OfTurn holds := by
    rintro holds ⟨turn, held', -⟩
    cases held.symm.trans held'
  unfold State.recvRestart at goes
  split_ifs at goes
  cases goes
  apply proven.unowned
  · simp [goTo]
  · rfl
  · exact fun waits => away _ (proven.waits waits)
  · exact fun ok => away _ (proven.ok ok).1
  · exact mem_flags_of_none rfl rfl
  · exact ⟨rfl, rfl, rfl, rfl⟩

theorem Proven.attempts (proven : s.Proven) (asks : s.status ≠ .sendOk)
    (lock : s'.lock = s.lock) (wire : s'.wire = s.wire) (status : s'.status = s.status)
    (fifo : s'.fifo = s.fifo) (running : s'.running = some (.sendAttempt false)) :
    s'.Proven := by
  have flags : ∀ flag ∈ s'.flags, flag ∈ s.flags :=
    mem_flags_of_none fifo (by rw [running]; rfl)
  constructor
  · intro flag member
    rw [wire]
    exact proven.young flag (flags flag member)
  · rw [status]
    exact fun waits => (proven.waits waits).same lock wire
  · rw [running]
    intro looks
    cases looks
  · rw [running]
    intro written
    cases written
  · rw [status]
    exact fun ok => absurd ok asks
  · rw [running]
    rfl
  · rw [lock, wire]
    exact proven.success

theorem Proven.sendCheck (proven : s.Proven) (live : s.Live) : s.sendCheck.Proven := by
  have rests : s.finish.Proven := proven.goes rfl rfl (.inl rfl) (mem_flags_of_none rfl rfl)
    (.inr ⟨rfl, rfl, rfl, rfl⟩)
  have signals : (s.goTo .sendSignal).Proven := proven.goes rfl rfl (.inl rfl)
    (mem_flags_of_none rfl rfl) (.inr ⟨rfl, rfl, rfl, rfl⟩)
  unfold State.sendCheck
  split
  · exact rests
  · rename_i msg there
    rw [if_neg (by rw [(live.msg msg there).2]; simp)]
    split
    · rename_i status
      exact proven.attempts (by rw [status]; simp) rfl rfl rfl rfl rfl
    · rename_i status
      exact proven.attempts (by rw [status]; simp) rfl rfl rfl rfl rfl
    · exact signals
    · exact signals
    · exact signals
    · exact rests
    · exact rests
    · rename_i status
      exact proven.attempts (by rw [status]; simp) rfl rfl rfl rfl rfl

theorem Proven.wrote (proven : s.Proven) (live : s.Live) {msg : Msg}
    (here : s.running = some (.sendAttempt false)) :
    ({ s with
      msg := some msg
      wire := .wrote s.turnNumber s.fifo.isEmpty :: s.wire }.goTo (.sendWritten false)).Proven := by
  have engaged : s.lock.inPhase TurnPhase.engaged := by
    apply live.meant
    · unfold sendRuns
      rw [here]
    · rw [here]
      rfl
  obtain ⟨turn, held⟩ : ∃ turn, s.lock = .sender turn := by
    revert engaged
    unfold Lock.inPhase
    split
    · rename_i turn held
      exact fun _ => ⟨turn, held⟩
    · intro engaged
      cases engaged
  rw [held] at engaged
  have owns : turn.phase.owns := by
    unfold TurnPhase.owns
    rw [show turn.phase.engaged = true from engaged]
    rfl
  have number : s.turnNumber = turn.number := by
    unfold turnNumber
    rw [held]
  have ofTurn : ({ s with
      msg := some msg
      wire := .wrote s.turnNumber s.fifo.isEmpty :: s.wire }.goTo
        (.sendWritten false)).OfTurn Written := by
    refine ⟨turn, held, owns, [], s.fifo.isEmpty, s.wire, ?_, by simp⟩
    rw [goTo, number]
    rfl
  constructor
  · intro flag member later number earlier same none
    have waiting : flag ∈ s.fifo := by
      rcases List.mem_append.mp member with waiting | handled
      · exact waiting
      · cases handled
    cases later with
    | nil =>
      injection same with head
      injection head with _ quiet
      rw [List.isEmpty_iff.mp quiet] at waiting
      cases waiting
    | cons event later =>
      injection same with head
      have first := none event List.mem_cons_self
      rw [← head] at first
      cases first
  · exact fun _ => ofTurn
  · intro looks
    cases looks
  · exact fun _ => ofTurn
  · intro ok
    have apart := (proven.ok ok).2
    rw [here] at apart
    cases apart
  · rfl
  · intro turn' held' succeeds
    cases held.symm.trans held'
    revert engaged succeeds
    unfold Lock.inPhase TurnPhase.engaged TurnPhase.succeeds
    dsimp only
    split <;> simp_all

theorem Proven.sendAttempt {config : Config} (proven : s.Proven) (live : s.Live)
    {ackNck wrote : Bool} (here : s.running = some (.sendAttempt ackNck))
    (goes : s.sendAttempt config ackNck wrote = some s') : s'.Proven := by
  have plain : ackNck = false := by
    have plain := proven.plain
    rw [here] at plain
    exact plain
  subst plain
  have apart : SendStatus.retryOver ≠ .waitAck ∧ SendStatus.retryOver ≠ .sendOk := by simp
  have fail : SendStatus.sendFail ≠ .waitAck ∧ SendStatus.sendFail ≠ .sendOk := by simp
  unfold State.sendAttempt at goes
  split at goes
  · obtain ⟨t, stops, rfl⟩ := Option.map_eq_some_iff.mp goes
    obtain ⟨-, rfl⟩ := stopAckReceiveTimer_eq stops
    exact proven.goes rfl rfl (.inr apart) (mem_flags_of_none rfl rfl)
      (.inr ⟨rfl, rfl, rfl, rfl⟩)
  · obtain ⟨msg, there, rfl⟩ := Option.map_eq_some_iff.mp goes
    split
    · exact proven.goes rfl rfl (.inr fail) (mem_flags_of_none rfl rfl)
        (.inr ⟨rfl, rfl, rfl, rfl⟩)
    · dsimp only
      split
      · exact proven.wrote live here
      · exact proven.goes rfl rfl (.inr fail) (mem_flags_of_none rfl rfl)
          (.inr ⟨rfl, rfl, rfl, rfl⟩)

theorem Proven.sendWritten (proven : s.Proven) {ackNck : Bool}
    (here : s.running = some (.sendWritten ackNck)) : (s.sendWritten ackNck).Proven := by
  have plain : ackNck = false := by
    have plain := proven.plain
    rw [here] at plain
    exact plain
  subst plain
  have ofTurn : s.OfTurn Written := proven.written (by rw [here]; rfl)
  have flags : ∀ flag ∈ (s.sendWritten false).flags, flag ∈ s.flags := mem_flags_of_none rfl rfl
  constructor
  · exact fun flag member => proven.young flag (flags flag member)
  · exact fun _ => ofTurn.same rfl rfl
  · intro looks
    cases looks
  · intro written
    cases written
  · intro ok
    cases ok
  · rfl
  · exact proven.success

/-! ## Every step -/

theorem Proven.setErrorFlag (proven : s.Proven) (bits : ErrFlag) :
    (s.setErrorFlag bits).Proven := by
  unfold State.setErrorFlag
  split_ifs
  · constructor
    · intro flag member
      rcases List.mem_append.mp member with waiting | handled
      · rcases List.mem_append.mp waiting with earlier | last
        · exact proven.young flag (List.mem_append_left _ earlier)
        · cases List.mem_singleton.mp last
          exact young_now s.wire
      · exact proven.young flag (List.mem_append_right _ handled)
    · exact proven.waits
    · exact proven.looked
    · exact proven.written
    · exact proven.ok
    · exact proven.plain
    · exact proven.success
  · exact proven

theorem Proven.start (proven : s.Proven) (goes : s.start = some s') : s'.Proven := by
  unfold State.start at goes
  split at goes
  · rename_i work queue idle queued
    cases goes
    cases work <;>
      exact proven.goes rfl rfl (.inl rfl) (mem_flags_of_none rfl rfl)
        (.inr ⟨rfl, rfl, rfl, rfl⟩)
  · cases goes

theorem Proven.workStep {config : WorkerConfig} (proven : s.Proven) (live : s.Live)
    {oracle : Oracle} (careful : s.Sends (.work oracle))
    (goes : s.workStep config oracle = some s') : s'.Proven := by
  have still : ∀ t : State, t.lock = s.lock → t.wire = s.wire → t.status = s.status →
      t.fifo = s.fifo → handledFlag t.running = [] → Still t.running → t.Proven :=
    fun t lock wire status fifo handled still =>
      proven.goes lock wire (.inl status) (mem_flags_of_none fifo handled) (.inr still)
  unfold State.workStep at goes
  unfold Sends at careful
  split at goes
  case h_1 => exact proven.start goes
  case h_2 here =>
    cases goes
    unfold State.recvGet
    split
    · exact still _ rfl rfl rfl rfl rfl ⟨rfl, rfl, rfl, rfl⟩
    · rename_i flag fifo waiting
      refine proven.goes rfl rfl (.inl rfl) ?_ (.inr ⟨rfl, rfl, rfl, rfl⟩)
      intro flag' member
      apply List.mem_append_left
      rw [waiting]
      rcases List.mem_append.mp member with later | first
      · exact .tail _ later
      · cases List.mem_singleton.mp first
        exact List.mem_cons_self
  case h_3 flag here => exact proven.recvCheck here goes
  case h_4 flag waitAck here => exact proven.recvLooked here goes
  case h_5 flag here =>
    cases goes
    unfold State.recvRead
    split
    · exact still _ rfl rfl rfl rfl rfl ⟨rfl, rfl, rfl, rfl⟩
    · refine proven.goes rfl rfl (.inl rfl) (mem_flags rfl ?_) (.inr ⟨rfl, rfl, rfl, rfl⟩)
      rw [here]
      exact fun _ member => member
  case h_6 flag letter here => exact proven.recvHandle here goes
  case h_7 letter here => exact proven.recvLock goes
  case h_8 letter here => exact proven.recvRestart live here goes
  case h_9 letter here =>
    cases goes
    have same := SameSender.queueWork (s := { s with recvMsg := some letter }) .event
    have kept := queueWork_kept (s := { s with recvMsg := some letter }) .event
    exact still _ same.lock kept.1 same.status kept.2 rfl ⟨rfl, rfl, rfl, rfl⟩
  case h_10 here =>
    cases goes
    split_ifs <;> exact still _ rfl rfl rfl rfl rfl ⟨rfl, rfl, rfl, rfl⟩
  case h_11 here =>
    cases goes
    unfold State.eventGet
    split
    · exact still _ rfl rfl rfl rfl rfl ⟨rfl, rfl, rfl, rfl⟩
    · split_ifs <;> exact still _ rfl rfl rfl rfl rfl ⟨rfl, rfl, rfl, rfl⟩
  case h_12 letter nck here =>
    rw [here] at careful
    dsimp only at careful
    rw [careful] at goes
    cases goes
    unfold State.replied
    split_ifs <;> exact still _ rfl rfl rfl rfl rfl ⟨rfl, rfl, rfl, rfl⟩
  case h_13 => cases goes
  case h_14 letter here =>
    cases goes
    unfold State.eventAlloc
    split_ifs <;> exact still _ rfl rfl rfl rfl rfl ⟨rfl, rfl, rfl, rfl⟩
  case h_15 here => cases goes; exact proven.sendCheck live
  case h_16 here => cases goes; exact still _ rfl rfl rfl rfl rfl ⟨rfl, rfl, rfl, rfl⟩
  case h_17 ackNck here => exact proven.sendAttempt live here goes
  case h_18 ackNck here => cases goes; exact proven.sendWritten here
  case h_19 here => cases goes; exact still _ rfl rfl rfl rfl rfl ⟨rfl, rfl, rfl, rfl⟩

theorem Proven.step {config : WorkerConfig} (proven : s.Proven) (live : s.Live) {move : Move}
    (careful : s.Sends move) (taken : step config s move = some s') : s'.Proven := by
  have started : SendStatus.sendStart ≠ .waitAck ∧ SendStatus.sendStart ≠ .sendOk := by simp
  cases move with
  | setErrorFlag bits => cases taken; exact proven.setErrorFlag bits
  | clrErrorFlag =>
    cases taken
    refine proven.goes rfl rfl (.inl rfl) ?_ (.inl rfl)
    exact fun flag member => List.mem_append_right _ member
  | msgHandler =>
    cases taken
    have same := SameSender.queueWork (s := s) .recv
    refine proven.goes same.lock (queueWork_kept .recv).1 (.inl same.status) ?_
      (.inl (queueWork_running .recv))
    rw [State.flags, (queueWork_kept .recv).2, queueWork_running]
    exact fun _ member => member
  | handshake =>
    cases taken
    exact proven.goes rfl rfl (.inl rfl) (fun _ member => member) (.inl rfl)
  | eventReset =>
    cases taken
    exact proven.goes rfl rfl (.inr started) (fun _ member => member) (.inl rfl)
  | exitSmWork =>
    cases taken
    refine proven.goes rfl rfl (.inr ?_) (fun _ member => member) (.inl rfl)
    simp [State.exitSmWork]
  | work oracle => exact proven.workStep live careful taken
  | callerLocks thread msg => exact proven.callerLocks taken
  | sendMsg =>
    simp only [UfcsWorker.step] at taken
    split at taken
    · rename_i turn held
      exact proven.sendMsg live held careful taken
    · cases taken
  | ackReceiveTimeout =>
    simp only [UfcsWorker.step, State.ackReceiveTimeout] at taken
    split_ifs at taken
    cases taken
    refine proven.goes rfl rfl (.inr ?_) (fun _ member => member) (.inl rfl)
    simp
  | ackReceiveQueue =>
    simp only [UfcsWorker.step, State.ackReceiveQueue] at taken
    split_ifs at taken
    cases taken
    refine proven.goes ?_ ?_ (.inl ?_) ?_ (.inl ?_)
    · exact (SameSender.queueWork _).lock
    · exact (queueWork_kept _).1
    · exact (SameSender.queueWork _).status
    · rw [State.flags, (queueWork_kept .send).2, queueWork_running]
      exact fun _ member => member
    · exact queueWork_running _
  | msgTransDelayTimeout =>
    simp only [UfcsWorker.step, State.msgTransDelayTimeout] at taken
    split at taken
    · cases taken
      exact proven.goes rfl rfl (.inl rfl) (fun _ member => member) (.inl rfl)
    · cases taken
  | msgTransDelayGo =>
    simp only [UfcsWorker.step, State.msgTransDelayGo] at taken
    split at taken
    · cases taken
    · cases taken
      exact proven.goes rfl rfl (.inr started) (fun _ member => member) (.inl rfl)
    · split_ifs at taken
      · cases taken
        refine proven.goes ?_ ?_ (.inl ?_) ?_ (.inl ?_)
        · exact (SameSender.queueWork _).lock
        · exact (queueWork_kept _).1
        · exact (SameSender.queueWork _).status
        · rw [State.flags, (queueWork_kept .send).2, queueWork_running]
          exact fun _ member => member
        · exact queueWork_running _
      · cases taken
        exact proven.goes rfl rfl (.inl rfl) (fun _ member => member) (.inl rfl)

theorem Proven.initial : ({} : State).Proven := by
  constructor
  · intro flag member
    cases member
  · intro waits
    cases waits
  · intro looks
    cases looks
  · intro written
    cases written
  · intro ok
    cases ok
  · rfl
  · intro turn held
    cases held

end State

/-- The wait of a thread that sends can end, and its send returns success only after an answer to
the frame that was written last. -/
structure State.Settled (s : State) : Prop where
  canEnd : ∀ turn, s.lock = .sender turn → turn.phase = .waiting → s.CanEnd turn
  acknowledged : ∀ turn, s.lock = .sender turn → turn.phase.succeeds →
    Acknowledged s.wire turn.number

instance (s : State) (move : Move) : Decidable (s.Sends move) := by
  unfold State.Sends
  exact match move with
    | .eventReset | .sendMsg => inferInstance
    | .work _ =>
      match s.running with
      | none | some (.eventReply _ _) => inferInstance
      | some .recvGet | some (.recvCheck _) | some (.recvLooked _ _) | some (.recvRead _)
      | some (.recvHandle _ _) | some (.recvLock _) | some (.recvRestart _) | some (.recvStore _)
      | some .recvDone | some .eventGet | some (.eventReplying _ _) | some (.eventAlloc _)
      | some .sendCheck | some .sendSignal | some (.sendAttempt _) | some (.sendWritten _)
      | some .sendArm => isTrue trivial
    | .setErrorFlag _ | .clrErrorFlag | .msgHandler | .handshake | .exitSmWork | .callerLocks _ _
    | .ackReceiveTimeout | .ackReceiveQueue | .msgTransDelayTimeout | .msgTransDelayGo =>
      isTrue trivial

def pingMsg : Msg := { version := 1, index := 0, addr := 1, body := .ctrl 0x00#8 }

def pingSentMoves : List Move :=
  [.callerLocks 0 pingMsg, .sendMsg, .sendMsg, .work {}, .work {}, .work {}, .work {}, .work {},
    .setErrorFlag 0x20#32, .msgHandler, .work {}, .work {}, .work {}, .work {}, .work {},
    .sendMsg, .sendMsg, .sendMsg]

theorem pingSentMoves_run :
    (play (step chipConfig) State.Sends {} pingSentMoves).isSome := by
  decide +kernel

def pingSent : State :=
  (play (step chipConfig) State.Sends {} pingSentMoves).get pingSentMoves_run

def replyConfig : WorkerConfig := { checkCrc := false, msgResend := true, replyAck := true }

def workerWaitsMoves : List Move :=
  [.setErrorFlag 0x100#32, .msgHandler, .work {}, .work {}, .work {},
    .work { buf := some [0x40#8, 0x08#8, 0x00#8] }, .work {}, .work {}, .work {}, .work {},
    .work {}, .work {}, .sendMsg, .sendMsg]

theorem workerWaitsMoves_run :
    (play (step replyConfig) (fun _ _ => True) {} workerWaitsMoves).isSome := by
  decide +kernel

def workerWaits : State :=
  (play (step replyConfig) (fun _ _ => True) {} workerWaitsMoves).get workerWaitsMoves_run

end VendorModules.UfcsWorker
