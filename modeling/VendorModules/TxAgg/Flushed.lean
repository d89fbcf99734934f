import VendorModules.TxAgg.Delivered

/-! A flush is to come for whatever is aggregated, unless the timer is cancelled for an aggregate
that was not there when its canceller held the lock. -/

namespace VendorModules.TxAgg

open Function Lib

variable {port : Port} {s s' : State}

namespace State

def Taking (port : Port) (s : State) (t : Nat) : Prop :=
  ∃ pkt qmap, s.phase t = .locking pkt qmap ∧ (qmap = true ∨ port.urgent pkt = true)

def Attended (port : Port) (s : State) : Prop :=
  s.workQueued = true ∨ s.workRunning = true ∨ ∃ t, s.Taking port t

def FlushToCome (port : Port) (s : State) : Prop :=
  s.aggregated ≠ [] → s.timerArmed = true ∨ s.timerFiring = true ∨ s.Attended port

/-- Every packet handed in is in one place, a sender's packets in the order handed in, and what
did not wait has followed what it found aggregated; the kernel has not stopped over a packet. -/
structure Delivered (s : State) : Prop where
  fifo : ∀ t, sentBy t s.handed = sentBy t s.out ++ sentBy t s.aggregated ++ (s.phase t).held
  follows : ∀ before x after, s.sent = before ++ x :: after →
    ∀ p ∈ x.behind, p ∈ before.flatMap (·.packets)
  awaited : ∀ t, ∀ p ∈ (s.phase t).behind, p ∈ s.out
  alive : s.panicked = false

def Overruns (port : Port) (s : State) (pkt : Packet) (now : Int) (built : Bool) : Prop :=
  port.urgent pkt = false ∧ s.aggSkb = none ∧ s.bypasses port pkt now = false ∧ built = true ∧
    port.room s.aggSizeOrder < pkt.len.toNat

/-- The timer is cancelled only when nothing is aggregated, or when a flush is to come without
it, and a packet that starts an aggregate has room in it. -/
def Careful (port : Port) (s : State) : Move → Prop
  | .cancel _ => s.aggregated = [] ∨ s.Attended port
  | .locked t now _ built => ∀ pkt, s.phase t = .locking pkt false →
      ¬s.Overruns port pkt now built
  | _ => True

theorem Attended.of_same (attended : s.Attended port) (queued : s'.workQueued = s.workQueued)
    (running : s'.workRunning = s.workRunning)
    (taking : ∀ t, s.Taking port t → s'.Taking port t) : s'.Attended port := by
  rcases attended with work | work | ⟨t, waits⟩
  · exact Or.inl (queued.trans work)
  · exact Or.inr (Or.inl (running.trans work))
  · exact Or.inr (Or.inr ⟨t, taking t waits⟩)

theorem taking_goto {t : Nat} {phase : Phase} (other : ¬s.Taking port t) (u : Nat)
    (waits : s.Taking port u) : (s.goto t phase).Taking port u := by
  obtain ⟨pkt, qmap, locking, takes⟩ := waits
  rcases eq_or_ne u t with rfl | apart
  · exact absurd ⟨pkt, qmap, locking, takes⟩ other
  · exact ⟨pkt, qmap, (goto_phase_other phase apart).trans locking, takes⟩

theorem not_taking {t : Nat} (off : ∀ pkt qmap, s.phase t ≠ .locking pkt qmap) :
    ¬s.Taking port t := by
  rintro ⟨pkt, qmap, locking, -⟩
  exact off pkt qmap locking

end State

open State

theorem FlushToCome.of_goto (to_come : s.FlushToCome port) {t : Nat}
    (other : ¬s.Taking port t) (aggregated : s'.aggregated = [] ∨ s.aggregated ≠ [])
    (phase : ∃ next, s'.phase = update s.phase t next) (armed : s'.timerArmed = s.timerArmed)
    (firing : s'.timerFiring = s.timerFiring) (queued : s'.workQueued = s.workQueued)
    (running : s'.workRunning = s.workRunning) : s'.FlushToCome port := by
  intro some_aggregated
  rcases to_come (aggregated.resolve_left some_aggregated) with timer | timer | attended
  · exact Or.inl (armed.trans timer)
  · exact Or.inr (Or.inl (firing.trans timer))
  · refine Or.inr (Or.inr (attended.of_same queued running ?_))
    obtain ⟨next, phase⟩ := phase
    intro u waits
    obtain ⟨pkt, qmap, locking, takes⟩ := taking_goto other u waits
    exact ⟨pkt, qmap, (congrFun phase u).trans locking, takes⟩

theorem flushToCome_of_none (free : s.aggSkb = none) : s.FlushToCome port :=
  fun some_aggregated => absurd (aggregated_none free) some_aggregated

theorem overtake_aggSkb (t : Nat) (pkt : Packet) : (s.overtake t pkt).aggSkb = none :=
  takeAggSkb_aggSkb

theorem txAggregate_flushToCome (inv : s.Inv port) (to_come : s.FlushToCome port) {t : Nat}
    {pkt : Packet} {now stamp : Int} {built : Bool} (locking : s.phase t = .locking pkt false) :
    (s.txAggregate port t pkt now stamp built).FlushToCome port := by
  unfold State.txAggregate
  split
  · exact flushToCome_of_none (overtake_aggSkb t pkt)
  rename_i waits
  split
  · rename_i free
    split_ifs with direct memory large
    · exact flushToCome_of_none free
    · exact flushToCome_of_none free
    · have idle : s.inProgress = false := by
        rw [inv.progress, free]
        rfl
      intro _
      left
      simp only [State.schedule, idle, State.goto]
      rfl
    · exact flushToCome_of_none free
  · rename_i agg here
    split_ifs with full
    · exact flushToCome_of_none takeAggSkb_aggSkb
    · have running : s.inProgress = true := by
        rw [inv.progress, here]
        rfl
      have other : ¬s.Taking port t := by
        rintro ⟨pkt', qmap, locking', takes⟩
        rw [locking] at locking'
        cases locking'
        exact takes.elim Bool.false_ne_true waits
      have some_aggregated : s.aggregated ≠ [] := by
        apply inv.filled
        rw [here]
        rfl
      simp only [State.schedule, running, if_true]
      exact FlushToCome.of_goto to_come other (Or.inr some_aggregated) ⟨.idle, rfl⟩ rfl rfl rfl rfl

theorem flushTxPacketWork_flushToCome (inv : s.Inv port) :
    s.flushTxPacketWork.FlushToCome port := by
  apply flushToCome_of_none
  unfold State.flushTxPacketWork
  simp only
  split
  · exact takeAggSkb_aggSkb
  · have idle : s.inProgress = false := by simpa using ‹¬s.inProgress = true›
    rw [inv.progress] at idle
    simpa using idle

theorem FlushToCome.step (inv : s.Inv port) (to_come : s.FlushToCome port) {move : Move}
    (careful : s.Careful port move) (taken : step port s move = some s') :
    s'.FlushToCome port := by
  unfold TxAgg.step at taken
  split at taken
  · cases taken
  cases move with
  | handIn pkt qmap =>
    simp only at taken
    split at taken
    · rename_i idle
      cases taken
      refine FlushToCome.of_goto to_come (t := pkt.sender) ?_ ?_ ⟨_, rfl⟩ rfl rfl rfl rfl
      · apply not_taking
        intro other qmap' locking
        rw [idle] at locking
        cases locking
      · exact or_iff_not_imp_left.mpr fun some_aggregated => some_aggregated
    · cases taken
  | locked t now stamp built =>
    simp only at taken
    split at taken
    · cases taken
      exact txAggregate_flushToCome inv to_come ‹_›
    · cases taken
      exact flushToCome_of_none (overtake_aggSkb t _)
    · cases taken
  | cancel t =>
    simp only at taken
    split at taken
    · cases taken
    -- the timer is off now, and what makes the cancel a careful one is left
    have left_over : ∀ next, ¬s.Taking port t →
        (({ s with timerArmed := false } : State).goto t next).FlushToCome port := by
      intro next other some_aggregated
      rcases careful with empty | attended
      · exact absurd empty some_aggregated
      · exact Or.inr (Or.inr (attended.of_same rfl rfl
          (taking_goto (s := { s with timerArmed := false }) other)))
    split at taken
    · rename_i pkt retries
      cases taken
      apply left_over
      apply not_taking
      intro other qmap locking
      rw [retries] at locking
      cases locking
    · rename_i pkt behind clears
      cases taken
      apply left_over
      apply not_taking
      intro other qmap locking
      rw [clears] at locking
      cases locking
    · cases taken
  | send t =>
    simp only at taken
    split at taken
    · rename_i pkt behind sends
      cases taken
      refine FlushToCome.of_goto to_come (t := t) ?_ ?_ ⟨_, rfl⟩ rfl rfl rfl rfl
      · apply not_taking
        intro other qmap locking
        rw [sends] at locking
        cases locking
      · exact or_iff_not_imp_left.mpr fun some_aggregated => some_aggregated
    · cases taken
  | expire =>
    simp only at taken
    split at taken <;> cases taken
    exact fun _ => Or.inr (Or.inl rfl)
  | callback =>
    simp only at taken
    split at taken <;> cases taken
    exact fun _ => Or.inr (Or.inr (Or.inl rfl))
  | workBegin =>
    simp only at taken
    split at taken <;> cases taken
    exact fun _ => Or.inr (Or.inr (Or.inr (Or.inl rfl)))
  | flushWork =>
    simp only at taken
    split at taken <;> cases taken
    exact flushTxPacketWork_flushToCome inv
  | updateConfig size count =>
    cases taken
    unfold State.updateUlAggConfig
    split
    · exact to_come
    · exact to_come

@[simp] theorem takeAggSkb_panicked : s.takeAggSkb.panicked = s.panicked := by
  unfold takeAggSkb
  cases s.aggSkb <;> rfl

@[simp] theorem schedule_panicked : s.schedule.panicked = s.panicked := by
  unfold State.schedule
  split <;> rfl

@[simp] theorem goto_panicked (t : Nat) (phase : Phase) :
    (s.goto t phase).panicked = s.panicked := rfl

@[simp] theorem transmit_panicked (packets behind : List Packet) :
    (s.transmit packets behind).panicked = s.panicked := rfl

@[simp] theorem overtake_panicked (t : Nat) (pkt : Packet) :
    (s.overtake t pkt).panicked = s.panicked :=
  takeAggSkb_panicked

theorem txAggregate_panicked_iff {t : Nat} {pkt : Packet} {now stamp : Int} {built : Bool}
    (alive : s.panicked = false) :
    (s.txAggregate port t pkt now stamp built).panicked = true ↔
      s.Overruns port pkt now built := by
  unfold State.txAggregate Overruns
  split
  · rename_i urgent
    simp [urgent, alive]
  rename_i waits
  split
  · rename_i free
    split_ifs with direct memory large <;> simp_all
  · rename_i agg here
    split_ifs with full <;> simp [here, alive]

theorem step_panicked_iff {move : Move} (taken : step port s move = some s') :
    s'.panicked = true ↔ ∃ t now stamp built pkt, move = .locked t now stamp built ∧
      s.phase t = .locking pkt false ∧ s.Overruns port pkt now built := by
  unfold TxAgg.step at taken
  split at taken
  · cases taken
  have alive : s.panicked = false := by simpa using ‹¬s.panicked = true›
  cases move with
  | locked t now stamp built =>
    simp only at taken
    split at taken
    · rename_i pkt locking
      cases taken
      rw [txAggregate_panicked_iff alive]
      constructor
      · exact fun overruns => ⟨t, now, stamp, built, pkt, rfl, locking, overruns⟩
      · rintro ⟨t', now', stamp', built', pkt', same, locking', overruns⟩
        cases same
        cases locking.symm.trans locking'
        exact overruns
    · rename_i pkt locking
      cases taken
      rw [overtake_panicked, alive]
      constructor
      · exact fun never => absurd never Bool.false_ne_true
      · rintro ⟨t', now', stamp', built', pkt', same, locking', -⟩
        cases same
        cases locking.symm.trans locking'
    · cases taken
  | handIn pkt qmap =>
    simp only at taken
    split at taken <;> cases taken
    simp [alive]
  | cancel t =>
    simp only at taken
    split at taken
    · cases taken
    split at taken <;> cases taken <;> simp [alive]
  | send t =>
    simp only at taken
    split at taken <;> cases taken
    simp [alive]
  | expire =>
    simp only at taken
    split at taken <;> cases taken
    simp [alive]
  | callback =>
    simp only at taken
    split at taken <;> cases taken
    simp [alive]
  | workBegin =>
    simp only at taken
    split at taken <;> cases taken
    simp [alive]
  | flushWork =>
    simp only at taken
    split at taken <;> cases taken
    unfold State.flushTxPacketWork
    split <;> simp [alive]
  | updateConfig size count =>
    cases taken
    unfold State.updateUlAggConfig
    split <;> simp [alive]

theorem Delivered.of_inv (inv : s.Inv port) (alive : s.panicked = false) : s.Delivered :=
  { fifo := inv.fifo, follows := inv.follows, awaited := inv.behind, alive := alive }

theorem not_flushToCome_of_cancel (inv : s.Inv port) {t : Nat}
    (careless : ¬s.Careful port (.cancel t)) (taken : step port s (.cancel t) = some s') :
    ¬s'.FlushToCome port := by
  simp only [Careful, not_or] at careless
  obtain ⟨some_aggregated, unattended⟩ := careless
  unfold TxAgg.step at taken
  split at taken
  · cases taken
  simp only at taken
  split at taken
  · cases taken
  rename_i firing
  -- whoever waits for the lock afterwards has waited before, or has no urgent packet
  have lost : ∀ next, (∀ pkt qmap, next = .locking pkt qmap → qmap = false ∧
        port.urgent pkt = false) →
      ¬(({ s with timerArmed := false } : State).goto t next).FlushToCome port := by
    intro next waits to_come
    rcases to_come some_aggregated with timer | timer | attended
    · cases timer
    · exact firing timer
    · apply unattended
      refine Attended.of_same attended rfl rfl ?_
      rintro u ⟨pkt, qmap, locking, takes⟩
      rcases eq_or_ne u t with rfl | other
      · rw [goto_phase_same] at locking
        obtain ⟨no_qmap, patient⟩ := waits pkt qmap locking
        simp [no_qmap, patient] at takes
      · rw [goto_phase_other next other] at locking
        exact ⟨pkt, qmap, locking, takes⟩
  split at taken
  · rename_i pkt retries
    cases taken
    apply lost
    intro pkt' qmap same
    cases same
    exact ⟨rfl, inv.patient t pkt retries⟩
  · cases taken
    apply lost
    intro pkt' qmap same
    cases same
  · cases taken

/-- In runs whose steps are all careful, a flush is to come for whatever is aggregated, and every
packet is delivered; a step that is not careful ends that. -/
theorem flushed_and_delivered (port : Port) :
    (∀ s, Reachable Initial (StepOf (step port) (Careful port)) s →
      s.FlushToCome port ∧ s.Delivered) ∧
    ∀ s move s', Reachable Initial (StepOf (step port) fun _ _ => True) s →
      step port s move = some s' → ¬s.Careful port move →
        ¬(s'.FlushToCome port ∧ s'.Delivered) := by
  constructor
  · intro s reached
    have inv := State.Inv.of_reachable reached
    suffices s.FlushToCome port ∧ s.panicked = false from
      ⟨this.1, Delivered.of_inv inv this.2⟩
    induction reached with
    | start initial =>
      obtain ⟨params, order, rfl⟩ := initial
      exact ⟨flushToCome_of_none rfl, rfl⟩
    | next before taken ih =>
      obtain ⟨move, careful, taken⟩ := taken
      have inv_before := State.Inv.of_reachable before
      obtain ⟨to_come, -⟩ := ih inv_before
      refine ⟨FlushToCome.step inv_before to_come careful taken, ?_⟩
      rw [Bool.eq_false_iff]
      intro stopped
      obtain ⟨t, now, stamp, built, pkt, rfl, locking, overruns⟩ := (step_panicked_iff taken).mp stopped
      exact careful pkt locking overruns
  · rintro s move s' reached taken careless ⟨to_come, delivered⟩
    have inv := State.Inv.of_reachable reached
    cases move with
    | cancel t => exact not_flushToCome_of_cancel inv careless taken to_come
    | locked t now stamp built =>
      simp only [Careful, not_forall, not_not] at careless
      obtain ⟨pkt, locking, overruns⟩ := careless
      have stopped := (step_panicked_iff taken).mpr
        ⟨t, now, stamp, built, pkt, rfl, locking, overruns⟩
      rw [delivered.alive] at stopped
      cases stopped
    | handIn pkt qmap => exact careless trivial
    | send t => exact careless trivial
    | expire => exact careless trivial
    | callback => exact careless trivial
    | workBegin => exact careless trivial
    | flushWork => exact careless trivial
    | updateConfig size count => exact careless trivial

/-- Sender 1 sends the aggregate of sender 0, who starts another one before the timer is
cancelled. -/
def cancelledMoves : List Move :=
  [.handIn { sender := 0, seq := 0, len := 100 } false, .locked 0 1 1 true,
    .handIn { sender := 1, seq := 0, len := 100 } false, .locked 1 2000000 2000000 true,
    .handIn { sender := 0, seq := 1, len := 100 } false, .locked 0 2000001 2000001 true, .cancel 1]

def cancelledPort : Port := { priority := false, sharedInfo := 320 }

theorem cancelledMoves_run : (play (step cancelledPort) (fun _ _ => True)
    { params := { aggSize := 4000, aggCount := 20 } } cancelledMoves).isSome := by
  decide +kernel

def cancelled : State := (play (step cancelledPort) (fun _ _ => True)
  { params := { aggSize := 4000, aggCount := 20 } } cancelledMoves).get cancelledMoves_run

/-- Nobody is to flush the packet that sender 0 has aggregated. -/
theorem flush_lost :
    ¬∀ (port : Port) (s : State), Reachable Initial (StepOf (step port) fun _ _ => True) s →
      s.FlushToCome port ∧ s.Delivered := by
  intro flushed
  have start : Reachable Initial (StepOf (step cancelledPort) fun _ _ => True)
      { params := { aggSize := 4000, aggCount := 20 } } := .start ⟨_, 0, rfl⟩
  have reached : Reachable Initial (StepOf (step cancelledPort) fun _ _ => True) cancelled :=
    play_reachable start cancelledMoves_run
  have some_aggregated : cancelled.aggregated ≠ [] := by decide +kernel
  rcases (flushed _ _ reached).1 some_aggregated with
    timer | timer | work | work | ⟨t, pkt, qmap, locking, takes⟩
  · exact absurd timer (by decide +kernel)
  · exact absurd timer (by decide +kernel)
  · exact absurd work (by decide +kernel)
  · exact absurd work (by decide +kernel)
  · -- only sender 1 waits for the lock, and its packet may be added to the aggregate
    have inv := State.Inv.of_reachable reached
    have held : pkt ∈ (cancelled.phase t).held := by simp [locking, Phase.held]
    have mine : pkt.sender = t := inv.own t pkt held
    have among : pkt ∈ sentBy t cancelled.handed := by
      rw [inv.fifo t]
      exact List.mem_append_right _ held
    have sender : ∀ p ∈ cancelled.handed, p.sender = 0 ∨ p.sender = 1 := by decide +kernel
    have first : cancelled.phase 0 = .idle := by decide +kernel
    have second : cancelled.phase 1 =
        .locking { sender := 1, seq := 0, len := 100 } false := by decide +kernel
    rcases sender pkt (List.mem_of_mem_filter among) with zero | one
    · rw [← mine, zero, first] at locking
      cases locking
    · rw [← mine, one, second] at locking
      cases locking
      exact absurd takes (by decide)

end VendorModules.TxAgg
