import VendorModules.Ser.Runs

namespace VendorModules.Ser

namespace Queue

variable {queue after : Queue} {vdevs : Finset VdevId} {lookups : Lookups}

def Unchanged (queue after : Queue) : Prop :=
  after = { queue with pool := after.pool } ∧ after.pool.Perm queue.pool

def Denies (queue : Queue) (lookups : Lookups) (cmd : Command) : Prop :=
  queue.Duplicate lookups cmd ∨ queue.pool = [] ∨
    queue.Full cmd (queue.admits lookups cmd)

/-- A command is turned away after it was counted among the blocking commands that wait,
or after its vdev's queue was disabled for it. -/
def Leaks (queue : Queue) (lookups : Lookups) (cmd : Command) : Prop :=
  ¬queue.Refuses lookups cmd ∧
    ((queue.Counts cmd ∧ queue.Denies lookups cmd) ∨
      (queue.kind = .nonScan ∧ cmd.queueDisable = true ∧ ¬queue.Duplicate lookups cmd ∧
        queue.pool ≠ [] ∧ queue.Full cmd (queue.admits lookups cmd)))

theorem Unchanged.refl (queue : Queue) : queue.Unchanged queue := ⟨rfl, .refl _⟩

theorem counted_of_not {cmd : Command} (not : ¬queue.Counts cmd) :
    queue.counted cmd = queue := by
  unfold counted
  rw [if_neg not]

theorem counted_waiting {cmd : Command} (counts : queue.Counts cmd) :
    (queue.counted cmd).blockingCmdWaiting = queue.blockingCmdWaiting + 1 := by
  unfold counted
  rw [if_pos counts]

theorem uint16_succ_ne (x : UInt16) : x + 1 ≠ x := by
  intro same
  have one : (1 : UInt16) = 0 := by
    have diff : x + 1 - x = 0 := by rw [same, UInt16.sub_self]
    rwa [UInt16.add_comm, UInt16.add_sub_cancel] at diff
  exact absurd one (by decide)

theorem disableFor_of_not {cmd : Command} (not : cmd.queueDisable = false) :
    queue.disableFor cmd = queue := by
  unfold disableFor
  simp [not]

theorem disableFor_disable {cmd : Command} (disables : cmd.queueDisable = true) :
    (queue.disableFor cmd).queueDisable cmd.vdev = true := by
  unfold disableFor
  simp [disables]

theorem Linked.freeNode_takeNode (linked : queue.Linked vdevs) {n : NodeId}
    {pool : List NodeId} (first : queue.pool = n :: pool) (accepted : Accepted) :
    (queue.takeNode n pool accepted).freeNode n = { queue with pool := pool ++ [n] } := by
  have zeroed := linked.free n (by rw [first]; exact List.mem_cons_self)
  have back : Function.update (Function.update queue.node n
      { queue.node n with content := some accepted }) n {} = queue.node := by
    rw [Function.update_idem, ← zeroed, Function.update_eq_self]
  unfold Queue.freeNode Queue.takeNode Queue.setNode
  simp only
  rw [back]

theorem disableFor_freeNode (cmd : Command) (n : NodeId) :
    (queue.disableFor cmd).freeNode n = (queue.freeNode n).disableFor cmd := by
  unfold disableFor
  split <;> rfl

theorem Linked.full_denied (linked : queue.Linked vdevs) {n : NodeId} {pool : List NodeId}
    (first : queue.pool = n :: pool) (accepted : Accepted) :
    (if queue.kind = .nonScan then
        ((queue.counted accepted.cmd).takeNode n pool accepted).disableFor accepted.cmd
      else (queue.counted accepted.cmd).takeNode n pool accepted).freeNode n =
      if queue.kind = .nonScan then
        ({ queue.counted accepted.cmd with pool := pool ++ [n] } : Queue).disableFor
          accepted.cmd
      else { queue.counted accepted.cmd with pool := pool ++ [n] } := by
  have first' : (queue.counted accepted.cmd).pool = n :: pool := by
    obtain ⟨waiting, same⟩ := counted_eq queue accepted.cmd
    rw [same]
    exact first
  have back := (counted_linked linked accepted.cmd).freeNode_takeNode first' accepted
  split
  · rw [disableFor_freeNode, back]
  · exact back

theorem Leaks.not_denied {cmd : Command} (leaks : queue.Leaks lookups cmd)
    (new : ¬queue.Duplicate lookups cmd) {n : NodeId} {pool : List NodeId}
    (first : queue.pool = n :: pool) (room : ¬queue.Full cmd (queue.admits lookups cmd)) :
    False := by
  rcases leaks with ⟨-, ⟨-, duplicate | empty | full⟩ | ⟨-, -, -, -, full⟩⟩
  · exact new duplicate
  · rw [first] at empty
    cases empty
  · exact room full
  · exact room full

/-- A request whose section turns it away leaves the queue as it was just when it does
not leak. -/
theorem Linked.unchanged_iff (linked : queue.Linked vdevs) {accepted : Accepted}
    {status : Status} {taken : Option NodeId}
    (enqueued : queue.Enqueued lookups accepted status taken after) :
    (status ≠ .active ∧ status ≠ .pending → queue.Unchanged after) ↔
      ¬queue.Leaks lookups accepted.cmd := by
  cases enqueued with
  | refused _ refuses =>
    exact iff_of_true (fun _ => .refl queue) fun leaks => leaks.1 refuses
  | turnedAway denied takes reason =>
    by_cases counts : queue.Counts accepted.cmd
    · refine iff_of_false (fun kept => ?_) (not_not_intro ⟨takes, .inl ⟨counts, ?_⟩⟩)
      · have waiting := congrArg blockingCmdWaiting (kept denied).1
        rw [counted_waiting counts] at waiting
        exact uint16_succ_ne _ waiting
      · rcases reason with duplicate | empty
        · exact .inl duplicate
        · exact .inr (.inl empty)
    · rw [counted_of_not counts]
      refine iff_of_true (fun _ => .refl queue) fun leaks => ?_
      rcases leaks with ⟨-, ⟨counted, -⟩ | ⟨-, -, new, some, -⟩⟩
      · exact counts counted
      · exact reason.elim new some
  | @full n pool takes new first full =>
    rw [linked.full_denied first]
    have some : queue.pool ≠ [] := by
      rw [first]
      exact List.cons_ne_nil _ _
    by_cases counts : queue.Counts accepted.cmd
    · refine iff_of_false (fun kept => ?_)
        (not_not_intro ⟨takes, .inl ⟨counts, .inr (.inr full)⟩⟩)
      have waiting := congrArg blockingCmdWaiting (kept (by simp)).1
      rw [if_pos counts.1] at waiting
      obtain ⟨disable, same⟩ := disableFor_eq
        ({ queue.counted accepted.cmd with pool := pool ++ [n] } : Queue) accepted.cmd
      rw [same] at waiting
      simp only [counted_waiting counts] at waiting
      exact uint16_succ_ne _ waiting
    · rw [counted_of_not counts]
      by_cases disables : queue.kind = .nonScan ∧ accepted.cmd.queueDisable = true
      · obtain ⟨kind, disables⟩ := disables
        refine iff_of_false (fun kept => ?_)
          (not_not_intro ⟨takes, .inr ⟨kind, disables, new, some, full⟩⟩)
        have disable := congrFun (congrArg queueDisable (kept (by simp)).1) accepted.cmd.vdev
        rw [if_pos kind, disableFor_disable disables] at disable
        exact takes ⟨kind, .inr disable.symm⟩
      · have same : (if queue.kind = .nonScan then
            ({ queue with pool := pool ++ [n] } : Queue).disableFor accepted.cmd
          else { queue with pool := pool ++ [n] }) = { queue with pool := pool ++ [n] } := by
          split
          next kind =>
            refine disableFor_of_not ?_
            simpa [kind] using disables
          · rfl
        rw [same]
        refine iff_of_true (fun _ => ⟨rfl, ?_⟩) fun leaks => ?_
        · rw [first]
          exact List.perm_append_singleton n pool
        · rcases leaks with ⟨-, ⟨counted, -⟩ | ⟨kind, disable, -⟩⟩
          · exact counts counted
          · exact disables ⟨kind, disable⟩
  | pending takes new first admits room lists =>
    refine iff_of_true (fun denied => absurd rfl denied.2) fun leaks => ?_
    rw [← admits] at room
    exact leaks.not_denied new first room
  | active takes new first admits room lists =>
    refine iff_of_true (fun denied => absurd rfl denied.1) fun leaks => ?_
    rw [← admits] at room
    exact leaks.not_denied new first room

end Queue

namespace Machine

variable {machine : Machine} {vdevs : Finset VdevId} {kind : Kind}

/-- In every reachable state, a request that is neither active nor pending leaves the
queue as it was just when it does not leak. -/
theorem enqueueCmd_unchanged_iff (few : vdevs.card ≤ pdevMaxVdevs)
    (reached : machine.Reachable vdevs kind) (lookups : Lookups) (cmd? : Option Command) :
    ((machine.queue.enqueueCmd lookups machine.tickets cmd?).1 ≠ .active ∧
        (machine.queue.enqueueCmd lookups machine.tickets cmd?).1 ≠ .pending →
          machine.queue.Unchanged
            (machine.queue.enqueueCmd lookups machine.tickets cmd?).2.2) ↔
      ¬∃ cmd, cmd? = some cmd ∧ lookups.Receives cmd ∧ machine.queue.Leaks lookups cmd := by
  have linked := (sound_of_reachable few reached).queue.linked
  generalize ran : machine.queue.enqueueCmd lookups machine.tickets cmd? = result
  obtain ⟨status, taken, after⟩ := result
  rcases linked.enqueueCmd ran with ⟨-, -, rfl, early⟩ | ⟨cmd, here, received, enqueued⟩
  · refine iff_of_true (fun _ => .refl _) ?_
    rintro ⟨cmd, here, received, -⟩
    exact early cmd here received
  · rw [linked.unchanged_iff enqueued]
    refine not_congr ⟨fun leaks => ⟨cmd, here, received, leaks⟩, ?_⟩
    rintro ⟨other, there, -, leaks⟩
    obtain rfl := Option.some.inj (here.symm.trans there)
    exact leaks

def waitingMoves : List Move :=
  [.request {} (some (sampleCmd 0 1 false)), .request {} (some (sampleCmd 1 2 true))]

def waitingMachine : Machine :=
  (Lib.play step (fun machine move => machine.Promised sampleVdevs move) (initial .nonScan)
    waitingMoves).get (by decide +kernel)

theorem waitingMachine_reachable : waitingMachine.Reachable sampleVdevs .nonScan := by
  have start : (initial .nonScan).Reachable sampleVdevs .nonScan := .start rfl
  exact Lib.play_reachable start _

/-- The blocking command is turned away as a duplicate, and counted a second time. -/
theorem waitingMachine_duplicate_changes :
    waitingMachine.Reachable sampleVdevs .nonScan ∧
      (waitingMachine.queue.enqueueCmd {} waitingMachine.tickets
        (some (sampleCmd 1 2 true))).1 = .deniedUnspecified ∧
      ¬waitingMachine.queue.Unchanged (waitingMachine.queue.enqueueCmd {}
        waitingMachine.tickets (some (sampleCmd 1 2 true))).2.2 := by
  refine ⟨waitingMachine_reachable, by decide +kernel, fun kept => ?_⟩
  have waiting := congrArg Queue.blockingCmdWaiting kept.1
  exact absurd waiting (by decide +kernel)

/-- A duplicate of the active command, which does not block, changes nothing. -/
theorem waitingMachine_unchanged_iff :
    sampleVdevs.card ≤ pdevMaxVdevs ∧
    ((waitingMachine.queue.enqueueCmd {} waitingMachine.tickets
          (some (sampleCmd 0 1 false))).1 ≠ .active ∧
        (waitingMachine.queue.enqueueCmd {} waitingMachine.tickets
          (some (sampleCmd 0 1 false))).1 ≠ .pending →
          waitingMachine.queue.Unchanged (waitingMachine.queue.enqueueCmd {}
            waitingMachine.tickets (some (sampleCmd 0 1 false))).2.2 ↔
      ¬∃ cmd, some (sampleCmd 0 1 false) = some cmd ∧ Lookups.Receives {} cmd ∧
        waitingMachine.queue.Leaks {} cmd) :=
  ⟨by decide, enqueueCmd_unchanged_iff (by decide) waitingMachine_reachable {} _⟩

end Machine

end VendorModules.Ser
