import VendorModules.Ser.Denied
import VendorModules.Ser.Placed

namespace VendorModules.Ser

/-- A blocking command that a cancellation has taken off the pending lists is counted
until the lock is taken again. -/
def Frame.uncounts : Frame → Bool
  | .cancelNotify accepted cancelling => !cancelling.isActive && accepted.cmd.isBlocking
  | .cancelResume cmd cancelling => !cancelling.isActive && cmd.isBlocking
  | _ => false

namespace Queue

variable {queue after : Queue} {vdevs : Finset VdevId} {n : NodeId} {isActive : Bool}
  {cmd : Command} {owed : Nat}

def blockingPending (queue : Queue) : Nat :=
  queue.pending.countP fun n => (queue.node n).isBlocking

/-- The count is of the pending blocking commands and of those that cancellations have
still to uncount. -/
def Waits (queue : Queue) (owed : Nat) : Prop :=
  queue.blockingCmdWaiting = .ofNat (queue.blockingPending + owed)

theorem blockingPending_le {kind : Kind} (nodes : queue.nodes.Perm (List.range (size kind))) :
    queue.blockingPending ≤ size kind := by
  have all := nodes.length_eq
  rw [List.length_range] at all
  calc queue.blockingPending
      ≤ queue.pending.length := List.countP_le_length
    _ ≤ queue.nodes.length := by
        unfold Queue.nodes
        rw [List.length_append, List.length_append]
        omega
    _ = size kind := all

theorem blockingPending_congr (pending : after.pending.Perm queue.pending)
    (nodes : ∀ m ∈ queue.pending, (after.node m).isBlocking = (queue.node m).isBlocking) :
    after.blockingPending = queue.blockingPending := by
  unfold blockingPending
  rw [pending.countP_eq]
  exact List.countP_congr fun m there => by rw [nodes m there]

theorem Unlists.blockingPending (unlists : queue.Unlists n isActive after)
    (listed : n ∈ queue.pdevList isActive) :
    queue.blockingPending =
      after.blockingPending + if !isActive && (queue.node n).isBlocking then 1 else 0 := by
  unfold Queue.blockingPending
  rw [unlists.pending, unlists.node]
  cases isActive with
  | true => rfl
  | false =>
    have first : queue.pending.Perm (n :: queue.pending.erase n) := List.perm_cons_erase listed
    rw [first.countP_eq, List.countP_cons]
    rfl

theorem Lists.blockingPending (lists : queue.Lists n cmd isActive after) :
    after.blockingPending =
      queue.blockingPending + if !isActive && (queue.node n).isBlocking then 1 else 0 := by
  unfold Queue.blockingPending
  rw [lists.pending, lists.node]
  cases isActive with
  | true => rfl
  | false =>
    rw [if_neg Bool.false_ne_true, (place_perm cmd n queue.pending).countP_eq,
      List.countP_cons]
    rfl

theorem ofNat_succ_sub (count : Nat) : UInt16.ofNat (count + 1) - 1 = UInt16.ofNat count := by
  rw [UInt16.ofNat_add]
  exact UInt16.add_sub_cancel _ _

namespace Waits

theorem congr (waits : queue.Waits owed) (pending : after.pending = queue.pending)
    (nodes : ∀ m ∈ queue.pending, (after.node m).isBlocking = (queue.node m).isBlocking)
    (waiting : after.blockingCmdWaiting = queue.blockingCmdWaiting) : after.Waits owed := by
  unfold Waits
  rw [waiting, blockingPending_congr (.of_eq pending) nodes]
  exact waits

theorem remarked (waits : queue.Waits owed) (remarked : queue.Remarked after) :
    after.Waits owed :=
  waits.congr remarked.pending (fun m _ => remarked.isBlocking m) (by rw [remarked.rest])

theorem setNode (waits : queue.Waits owed) {node : Node}
    (same : node.content = (queue.node n).content) : (queue.setNode n node).Waits owed :=
  waits.congr rfl (fun _ _ => Node.isBlocking_congr (setNode_content same)) rfl

theorem freeNode (waits : queue.Waits owed) (loose : queue.Loose n) :
    (queue.freeNode n).Waits owed := by
  refine waits.congr rfl (fun m there => ?_) rfl
  rw [loose.freeNode_node (List.mem_append_right _ (List.mem_append_left _ there))]

theorem unlists (waits : queue.Waits owed) (unlists : queue.Unlists n isActive after)
    (listed : n ∈ queue.pdevList isActive) :
    after.Waits (owed + if !isActive && (queue.node n).isBlocking then 1 else 0) := by
  unfold Waits
  rw [unlists.waiting, waits, unlists.blockingPending listed]
  congr 1
  omega

theorem markActive (waits : queue.Waits owed) : (queue.markActive cmd).Waits owed := by
  unfold Queue.markActive
  split
  · exact waits
  · exact waits.congr rfl (fun _ _ => rfl) rfl

theorem promotes (waits : queue.Waits owed) (kind : queue.kind = .nonScan)
    {accepted : Accepted} (promotes : queue.Promotes n accepted after) :
    after.Waits owed := by
  obtain ⟨pending, content, mid, last, unlists, lists, rfl⟩ := promotes
  have same : (queue.node n).isBlocking = accepted.cmd.isBlocking := by
    simp [Node.isBlocking, content]
  have left := waits.unlists unlists pending
  simp only [Bool.not_false, Bool.true_and, same] at left
  have listed : last.Waits (owed + if accepted.cmd.isBlocking then 1 else 0) := by
    refine left.congr ?_ (fun m _ => by rw [lists.node]) lists.waiting
    rw [lists.pending]
    rfl
  have marked : ((last.markActive accepted.cmd).setMarks n
      fun marks => { marks with markedForActivation := true }).Waits
        (owed + if accepted.cmd.isBlocking then 1 else 0) := listed.markActive.setNode rfl
  dsimp only
  split
  next blocks =>
    rw [blocks.2, if_pos rfl] at marked
    unfold Waits at marked ⊢
    simp only
    rw [marked, ← Nat.add_assoc]
    exact ofNat_succ_sub _
  next not =>
    rw [if_neg fun blocks => not ⟨kind, blocks⟩] at marked
    exact marked

theorem settleCancel (kind : queue.kind = .nonScan)
    (waits : queue.Waits (owed + if !isActive && cmd.isBlocking then 1 else 0)) :
    (queue.settleCancel cmd isActive).Waits owed := by
  unfold Queue.settleCancel
  split
  next scan => simp [kind] at scan
  next =>
    cases isActive with
    | true => exact waits.congr rfl (fun _ _ => rfl) rfl
    | false =>
      simp only [Bool.not_false, Bool.true_and] at waits
      rw [if_neg Bool.false_ne_true]
      split
      next blocks =>
        rw [if_pos blocks] at waits
        unfold Waits at waits ⊢
        simp only
        rw [waits, ← Nat.add_assoc]
        exact ofNat_succ_sub _
      next not =>
        rw [if_neg not] at waits
        exact waits

end Waits

def Balances (queue : Queue) (lookups : Lookups) (cmd : Command) : Prop :=
  cmd.isBlocking = true → ¬queue.Refuses lookups cmd →
    (queue.anyVdevCmdActive = true ↔
      queue.admits lookups cmd = false ∧ ¬queue.Denies lookups cmd)

instance (queue : Queue) (lookups : Lookups) (cmd : Command) :
    Decidable (queue.Balances lookups cmd) := by
  unfold Balances Refuses Denies Full
  infer_instance

def SparesBlocking (queue : Queue) (call : CancelCall) : Prop :=
  ∀ n ∈ queue.pending, queue.isSkipped call n = true ∨ (queue.node n).isBlocking = false

def SparesWaiting (queue : Queue) : Frame → Prop
  | .cancel call false => queue.SparesBlocking call
  | .cancelResume _ cancelling =>
    cancelling.isActive = false → queue.SparesBlocking cancelling.call
  | _ => True

instance (queue : Queue) (frame : Frame) : Decidable (queue.SparesWaiting frame) := by
  unfold SparesWaiting SparesBlocking
  split <;> infer_instance

theorem Waits.enqueued (waits : queue.Waits owed) (linked : queue.Linked vdevs)
    (kind : queue.kind = .nonScan) {lookups : Lookups} {accepted : Accepted}
    {status : Status} {taken : Option NodeId} (balances : queue.Balances lookups accepted.cmd)
    (enqueued : queue.Enqueued lookups accepted status taken after) : after.Waits owed := by
  have taken : ∀ {n pool}, queue.pool = n :: pool →
      (queue.counted accepted.cmd).blockingCmdWaiting =
        ((queue.counted accepted.cmd).takeNode n pool accepted).blockingCmdWaiting ∧
      ((queue.counted accepted.cmd).takeNode n pool accepted).blockingPending =
        queue.blockingPending := by
    intro n pool first
    obtain ⟨-, -, nodes⟩ := linked.taken first accepted
    obtain ⟨waiting, same⟩ := counted_eq queue accepted.cmd
    rw [same] at nodes ⊢
    refine ⟨rfl, blockingPending_congr (.refl _) fun m there => ?_⟩
    rw [nodes m (List.mem_append_left _ there)]
  have uncounted : ¬queue.Refuses lookups accepted.cmd →
      ¬(queue.admits lookups accepted.cmd = false ∧ ¬queue.Denies lookups accepted.cmd) →
        queue.counted accepted.cmd = queue := by
    intro takes other
    refine counted_of_not fun ⟨_, blocks, active⟩ => other ?_
    exact (balances blocks takes).1 active
  cases enqueued with
  | refused => exact waits
  | turnedAway _ takes reason =>
    rw [uncounted takes]
    · exact waits
    · rintro ⟨-, accepts⟩
      rcases reason with duplicate | empty
      · exact accepts (.inl duplicate)
      · exact accepts (.inr (.inl empty))
  | @full n pool takes new first full =>
    obtain ⟨loose, -, -⟩ := linked.taken first accepted
    obtain ⟨waiting, pending⟩ := taken first
    rw [if_pos kind]
    obtain ⟨disable, same⟩ := disableFor_eq
      ((queue.counted accepted.cmd).takeNode n pool accepted) accepted.cmd
    rw [same]
    refine Waits.freeNode ?_ loose
    have waits : ((queue.counted accepted.cmd).takeNode n pool accepted).Waits owed := by
      unfold Waits
      rw [← waiting, pending, uncounted takes fun denied => denied.2 (.inr (.inr full))]
      exact waits
    exact waits.congr rfl (fun _ _ => rfl) rfl
  | @pending n pool _ takes new first admits room lists =>
    obtain ⟨-, node, -⟩ := linked.taken first accepted
    obtain ⟨waiting, pending⟩ := taken first
    have accepts : ¬queue.Denies lookups accepted.cmd := by
      rintro (duplicate | empty | full)
      · exact new duplicate
      · rw [first] at empty
        cases empty
      · exact room (admits ▸ full)
    unfold Waits
    rw [lists.waiting, lists.blockingPending, ← waiting, pending, node]
    simp only [Node.isBlocking, Option.any_some, Bool.not_false, Bool.true_and]
    cases blocks : accepted.cmd.isBlocking with
    | false =>
      rw [counted_of_not fun counts => by simp [counts.2.1] at blocks]
      exact waits
    | true =>
      have active := (balances blocks takes).2 ⟨admits, accepts⟩
      rw [counted_waiting ⟨kind, blocks, active⟩, waits, if_pos rfl,
        Nat.add_right_comm, UInt16.ofNat_add _ 1]
      rfl
  | @active n pool last takes _ first admits _ lists =>
    obtain ⟨waiting, pending⟩ := taken first
    have waits : last.Waits owed := by
      unfold Waits
      rw [lists.waiting, lists.blockingPending, ← waiting, pending,
        uncounted takes fun pends => by simp [admits] at pends]
      exact waits
    exact waits.markActive.setNode rfl

end Queue

section Steps

variable {queue after : Queue} {vdevs : Finset VdevId} {choice : Choice} {frame : Frame}
  {new : List Frame} {callbacks : List (Nat × CbReason)} {activating : List NodeId}
  {windows : List VdevId} {owed : Nat}

theorem Queue.Waits.walked (waits : queue.Waits owed) (linked : queue.Linked vdevs)
    {call : CancelCall} {isActive : Bool} (walked : queue.Walked call isActive new after) :
    after.Waits (new.countP Frame.uncounts + owed) := by
  cases walked with
  | ended remarked last =>
    have kept := waits.remarked remarked
    rcases last with ⟨-, rfl⟩ | ⟨-, rfl⟩ <;> simpa [Frame.uncounts] using kept
  | @removed n accepted marked mid _ _ remarked member _ content _ unlists =>
    have listed : n ∈ marked.pdevList isActive := remarked.pdevList _ ▸ member
    have same : (marked.node n).isBlocking = accepted.cmd.isBlocking := by
      rw [remarked.isBlocking]
      simp [Node.isBlocking, content]
    have left := (waits.remarked remarked).unlists unlists listed
    rw [same, Nat.add_comm] at left
    refine Queue.Waits.freeNode ?_ ((linked.remarked remarked).loose unlists listed)
    simpa [Frame.uncounts, List.countP_cons] using left

/-- A step keeps the count of the blocking commands, up to what cancellations have still
to uncount. -/
theorem Ran.waits (ran : Ran queue choice frame new after callbacks)
    (kind : queue.kind = .nonScan)
    (sound : queue.Sound vdevs (frame.activating?.toList ++ activating)
      (frame.window?.toList ++ windows))
    (waits : queue.Waits ([frame].countP Frame.uncounts + owed)) :
    after.Waits (new.countP Frame.uncounts + owed) := by
  cases ran with
  | activate => exact waits.setNode rfl
  | activated => exact waits.setNode rfl
  | notStarted | release | timeoutNotify => exact waits
  | cancelNotify => simpa [Frame.uncounts, List.countP_cons] using waits
  | settle goesOn => rcases goesOn with rfl | rfl | ⟨call, rfl⟩ <;> exact waits
  | timeout goesOn => rcases goesOn with rfl | ⟨-, rfl⟩ <;> exact waits
  | notFound remarked => exact waits.remarked remarked
  | stay moves remarked =>
    have kept := waits.remarked remarked
    cases frame <;> first | exact kept | exact moves.elim
  | stopped moves => cases frame <;> first | exact waits | exact moves.elim
  | cancel walked =>
    have before : queue.Waits owed := by simpa [Frame.uncounts] using waits
    exact before.walked sound.linked walked
  | @dequeue _ n accepted mid active content _ unlists =>
    have loose := sound.linked.loose_markRemoved unlists active accepted.cmd.vdev
    refine Queue.Waits.freeNode ?_ loose
    have left := waits.unlists unlists active
    unfold Queue.markRemoved
    split
    · exact left
    · exact left.congr rfl (fun _ _ => rfl) rfl
  | move moves remarked promotes _ _ _ _ goesOn =>
    have kept : after.Waits owed := by
      have before := waits.remarked remarked
      refine Queue.Waits.promotes ?_ (remarked.kind.trans kind) promotes
      cases frame <;> first | simpa [Frame.uncounts] using before | exact moves.elim
    rcases goesOn with ⟨-, rfl⟩ | ⟨-, lookup, -, rfl⟩ <;> simpa [Frame.uncounts] using kept
  | @cancelResume cmd cancelling _ _ walked =>
    have settled : (queue.settleCancel cmd cancelling.isActive).Sound vdevs activating
        windows := Queue.Sound.resumed sound
    refine Queue.Waits.walked ?_ settled.linked walked
    refine Queue.Waits.settleCancel kind ?_
    rw [Nat.add_comm]
    simpa [Frame.uncounts, List.countP_cons] using waits

/-- Where no cancellation takes a blocking command off the pending lists, none has one to
uncount. -/
theorem Ran.sparesWaiting (ran : Ran queue choice frame new after callbacks)
    (spares : queue.SparesWaiting frame) (none : frame.uncounts = false) :
    new.countP Frame.uncounts = 0 := by
  have walked : ∀ {before : Queue} {call isActive}, before.Walked call isActive new after →
      (isActive = false → before.SparesBlocking call) → new.countP Frame.uncounts = 0 := by
    intro before call isActive walked spared
    cases walked with
    | ended _ last => rcases last with ⟨-, rfl⟩ | ⟨-, rfl⟩ <;> rfl
    | @removed n accepted _ _ _ _ _ member chosen content _ _ =>
      cases isActive with
      | true => simp [Frame.uncounts]
      | false =>
        have quiet : accepted.cmd.isBlocking = false := by
          rcases spared rfl n member with skipped | quiet
          · rw [skipped] at chosen
            cases chosen
          · simpa [Node.isBlocking, content] using quiet
        simp [Frame.uncounts, quiet]
  cases ran with
  | activate | notStarted | activated | notFound | dequeue | stay | release | stopped
  | timeoutNotify => rfl
  | settle goesOn => rcases goesOn with rfl | rfl | ⟨call, rfl⟩ <;> rfl
  | timeout goesOn => rcases goesOn with rfl | ⟨-, rfl⟩ <;> rfl
  | move _ _ _ _ _ _ _ goesOn => rcases goesOn with ⟨-, rfl⟩ | ⟨-, lookup, -, rfl⟩ <;> rfl
  | @cancel _ isActive _ _ walk =>
    refine walked walk fun pending => ?_
    subst pending
    exact spares
  | cancelNotify => simpa [Frame.uncounts, List.countP_cons] using none
  | @cancelResume cmd cancelling _ _ walk =>
    refine walked walk fun pending n member => ?_
    have same : (queue.settleCancel cmd cancelling.isActive).pending = queue.pending ∧
        (queue.settleCancel cmd cancelling.isActive).isSkipped cancelling.call n =
          queue.isSkipped cancelling.call n ∧
        ((queue.settleCancel cmd cancelling.isActive).node n).isBlocking =
          (queue.node n).isBlocking := by
      unfold Queue.settleCancel
      split
      · exact ⟨rfl, rfl, rfl⟩
      · split
        · exact ⟨rfl, rfl, rfl⟩
        · split <;> exact ⟨rfl, rfl, rfl⟩
    rw [same.2.1, same.2.2]
    exact spares pending n (same.1 ▸ member)

theorem waits_kept (vdevs : Finset VdevId) (steps : Queue → Frame → Prop) :
    Kept vdevs .nonScan Queue.Balances steps fun queue frames =>
      queue.Waits (frames.countP Frame.uncounts) where
  initial := rfl
  perm := fun waits perm => perm.countP_eq Frame.uncounts ▸ waits
  spawn := by
    intro queue frames thread waits starts
    have none : thread.countP Frame.uncounts = 0 := by
      refine List.countP_eq_zero.2 fun frame member => ?_
      have start := starts frame member
      cases frame <;> first | exact Bool.false_ne_true | cases start
    rw [List.countP_append, none]
    exact waits
  disable := fun waits => waits
  enqueued := by
    intro queue frames lookups accepted status taken after kind sound waits balances enqueued
    have next := waits.enqueued sound.linked kind balances enqueued
    cases taken <;> exact next
  ran := by
    intro queue choice frame new others after callbacks kind sound waits _ ran
    rw [← List.singleton_append, List.countP_append] at waits
    rw [List.countP_append]
    exact ran.waits kind sound waits

theorem sparesWaiting_kept (vdevs : Finset VdevId)
    (requests : Queue → Lookups → Command → Prop) :
    Kept vdevs .nonScan requests Queue.SparesWaiting fun _ frames =>
      frames.countP Frame.uncounts = 0 where
  initial := rfl
  perm := fun none perm => (perm.countP_eq Frame.uncounts).symm.trans none
  spawn := by
    intro queue frames thread none starts
    rw [List.countP_append, none, Nat.zero_add, List.countP_eq_zero]
    intro frame member
    have start := starts frame member
    cases frame <;> first | exact Bool.false_ne_true | cases start
  disable := fun none => none
  enqueued := by
    intro queue frames lookups accepted status taken after _ _ none _ _
    cases taken <;> exact none
  ran := by
    intro queue choice frame new others after callbacks _ _ none spares ran
    rw [List.countP_cons, Nat.add_eq_zero_iff] at none
    rw [List.countP_append, none.1, ran.sparesWaiting spares (by simpa using none.2)]

end Steps

namespace Machine

variable {machine : Machine} {vdevs : Finset VdevId}

def BalancedMove (vdevs : Finset VdevId) : Machine → Move → Prop :=
  Allowed vdevs Queue.Balances fun _ _ => True

def CountedMove (vdevs : Finset VdevId) : Machine → Move → Prop :=
  Allowed vdevs Queue.Balances Queue.SparesWaiting

instance (vdevs : Finset VdevId) (machine : Machine) (move : Move) :
    Decidable (CountedMove vdevs machine move) :=
  inferInstanceAs (Decidable (Allowed vdevs _ _ machine move))

theorem blockingPending_le (few : vdevs.card ≤ pdevMaxVdevs)
    {requests : Queue → Lookups → Command → Prop} {steps : Queue → Frame → Prop}
    (reached : Lib.Reachable (· = initial .nonScan)
      (Lib.StepOf step (Allowed vdevs requests steps)) machine) :
    machine.queue.blockingPending ≤ Queue.size .nonScan := by
  obtain ⟨sound, placed⟩ := kept_of_reachable (placed_kept vdevs .nonScan _ _) few reached
  exact Queue.blockingPending_le (sound.ofKind ▸ placed.nodes)

def recountedMachine : Machine :=
  (Lib.play step (fun machine move => machine.Promised sampleVdevs move) (initial .nonScan)
    [.request {} (some (sampleCmd 0 1 false)), .request {} (some (sampleCmd 1 2 true)),
      .request {} (some (sampleCmd 1 2 true))]).get (by decide +kernel)

def countedMachine : Machine :=
  (Lib.play step (CountedMove sampleVdevs) (initial .nonScan)
    [.request {} (some (sampleCmd 0 1 false)), .run 0 {}, .run 0 {}, .run 0 {},
      .request {} (some (sampleCmd 1 2 true)), .remove (sampleCmd 0 1 false).key,
      .run 2 {}]).get (by decide +kernel)

end Machine

end VendorModules.Ser
