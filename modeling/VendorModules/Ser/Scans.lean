import Mathlib
import VendorModules.Ser.Runs

namespace VendorModules.Ser

/-- A step that counts the active scans, while it holds its pdev's lock: the pdevs it has
read, and what it has found there. -/
structure Count where
  move : Move
  reads : Nat
  total : Nat
  deriving DecidableEq, Repr

structure ScanPdev where
  machine : Machine
  count : Option Count

/-- The scan queues of a psoc's pdevs, and `max_active_scans_allowed`. -/
structure Psoc where
  pdevs : List ScanPdev
  maxActiveScans : Nat

inductive ScanMove
  /-- The pdev's lock is taken for a step that counts. -/
  | count (p : Nat) (move : Move)
  /-- `wlan_serialization_active_scan_cmd_count_handler` for the next pdev. -/
  | read (p : Nat)
  /-- The rest of the step, after the count. -/
  | conclude (p : Nat)
  /-- A step that does not count. -/
  | other (p : Nat) (move : Move)
  deriving DecidableEq, Repr

def Frame.locks : Frame → Bool
  | .activate _ => false
  | .settle _ _ => false
  | .release _ => false
  | .cancelNotify _ _ => false
  | .timeoutNotify _ => false
  | _ => true

namespace Machine

def counts (machine : Machine) : Move → Bool
  | .request _ _ => true
  | .run i _ => (machine.head? i).any Frame.counts
  | _ => false

def locks (machine : Machine) : Move → Bool
  | .run i _ => (machine.head? i).any Frame.locks
  | _ => false

def moving (machine : Machine) : Nat := machine.frames.countP Frame.counts

end Machine

def Move.counted (activeScans maxActiveScans : Nat) : Move → Move
  | .request lookups cmd? =>
    .request { lookups with
      activeScans := activeScans
      maxActiveScans := maxActiveScans } cmd?
  | .run i choice =>
    .run i { choice with
      lookups := { choice.lookups with
        activeScans := activeScans
        maxActiveScans := maxActiveScans } }
  | move => move

def Move.promotes : Move → Bool
  | .run _ _ => true
  | _ => false

namespace Psoc

def setPdev (psoc : Psoc) (p : Nat) (pdev : ScanPdev) : Psoc :=
  { psoc with pdevs := psoc.pdevs.set p pdev }

def setMachine (psoc : Psoc) (p : Nat) (count : Option Count) (machine : Option Machine) :
    Option Psoc :=
  machine.map fun machine => psoc.setPdev p { machine := machine, count := count }

def step (psoc : Psoc) : ScanMove → Option Psoc
  | .count p move =>
    match psoc.pdevs[p]? with
    | some pdev =>
      if pdev.count.isNone && pdev.machine.counts move then
        some (psoc.setPdev p { pdev with
          count := some { move := move, reads := 0, total := 0 } })
      else none
    | none => none
  | .read p =>
    match psoc.pdevs[p]? with
    | some { machine := machine, count := some count } =>
      match psoc.pdevs[count.reads]? with
      | some other =>
        some (psoc.setPdev p
          { machine := machine
            count := some { count with
              reads := count.reads + 1
              total := count.total + other.machine.queue.active.length } })
      | none => none
    | _ => none
  | .conclude p =>
    match psoc.pdevs[p]? with
    | some { machine := machine, count := some count } =>
      if count.reads = psoc.pdevs.length then
        psoc.setMachine p none
          (machine.step (count.move.counted count.total psoc.maxActiveScans))
      else none
    | _ => none
  | .other p move =>
    match psoc.pdevs[p]? with
    | some pdev =>
      if pdev.machine.counts move || (pdev.count.isSome && pdev.machine.locks move) then
        none
      else
        psoc.setMachine p pdev.count (pdev.machine.step move)
    | none => none

def Promised (vdevs : Nat → Finset VdevId) : ScanMove → Prop
  | .count p (.request _ cmd?) =>
    ∀ cmd ∈ cmd?, cmd.cmdType.kind = .scan ∧ cmd.vdev ∈ vdevs p
  | _ => True

instance (vdevs : Nat → Finset VdevId) (move : ScanMove) : Decidable (Promised vdevs move) := by
  unfold Promised
  split <;> infer_instance

def initial (pdevs maxActiveScans : Nat) : Psoc where
  pdevs := List.replicate pdevs { machine := .initial .scan, count := none }
  maxActiveScans := maxActiveScans

def Fresh (psoc : Psoc) : Prop :=
  ∃ pdevs maxActiveScans, maxActiveScans ≤ maxActiveScanCmds ∧
    psoc = initial pdevs maxActiveScans

def Reachable (vdevs : Nat → Finset VdevId) : Psoc → Prop :=
  Lib.Reachable Fresh (Lib.StepOf step fun _ move => Promised vdevs move)

def activeScans (psoc : Psoc) : Nat :=
  (psoc.pdevs.map fun pdev => pdev.machine.queue.active.length).sum

def moving (psoc : Psoc) : Nat :=
  (psoc.pdevs.map fun pdev => pdev.machine.moving).sum

def SomePending (psoc : Psoc) : Prop :=
  ∃ pdev ∈ psoc.pdevs, pdev.machine.queue.pending ≠ []

def Idle (psoc : Psoc) : Prop :=
  ∀ pdev ∈ psoc.pdevs, pdev.machine.frames = [] ∧ pdev.count = none

end Psoc

def Frame.cancels? : Frame → Option CancelCall
  | .cancel call isActive => if isActive then some call else none
  | .cancelResume _ cancelling => if cancelling.isActive then some cancelling.call else none
  | _ => none

/-- A scan queue's step, by what it does to the lists and to the promotions that have
still to come. -/
inductive ScanRan (queue : Queue) (allowed : Bool) (frame : Frame) (new : List Frame)
    (after : Queue) : Prop
  | quiet (active : after.active.length = queue.active.length)
      (pending : after.pending = queue.pending) (silent : frame.counts = false)
      (none : new.countP Frame.counts = 0)
  | dequeue (active : after.active.length + 1 = queue.active.length)
      (pending : after.pending = queue.pending) (silent : frame.counts = false)
      (one : new.countP Frame.counts = 1) (locks : frame.locks = true)
  | stay (active : after.active.length = queue.active.length)
      (pending : after.pending = queue.pending) (counts : frame.counts = true)
      (none : new.countP Frame.counts = 0)
      (stuck : queue.pending = [] ∨ allowed = false)
  | move (active : after.active.length = queue.active.length + 1)
      (pending : queue.pending ≠ []) (counts : frame.counts = true)
      (none : new.countP Frame.counts = 0) (may : allowed = true)
  | cancelActive {call : CancelCall} {n : NodeId}
      (active : after.active.length + 1 = queue.active.length)
      (pending : after.pending = queue.pending) (silent : frame.counts = false)
      (none : new.countP Frame.counts = 0) (cancels : frame.cancels? = some call)
      (member : n ∈ queue.active) (chosen : queue.isSkipped call n = false)
  | cancelPending (active : after.active.length = queue.active.length)
      (pending : queue.pending ≠ []) (silent : frame.counts = false)
      (none : new.countP Frame.counts = 0)

section Steps

variable {queue after : Queue} {choice : Choice} {frame : Frame} {new : List Frame}
  {callbacks : List (Nat × CbReason)}

@[simp] theorem Queue.markRemoved_active (n : NodeId) (vdev : VdevId) :
    (queue.markRemoved n vdev).active = queue.active := by
  unfold Queue.markRemoved
  split <;> rfl

@[simp] theorem Queue.markRemoved_pending (n : NodeId) (vdev : VdevId) :
    (queue.markRemoved n vdev).pending = queue.pending := by
  unfold Queue.markRemoved
  split <;> rfl

@[simp] theorem Queue.markActive_active (cmd : Command) :
    (queue.markActive cmd).active = queue.active := by
  unfold Queue.markActive
  split <;> rfl

@[simp] theorem Queue.markActive_pending (cmd : Command) :
    (queue.markActive cmd).pending = queue.pending := by
  unfold Queue.markActive
  split <;> rfl

theorem Queue.length_place (cmd : Command) (n : NodeId) (list : List NodeId) :
    (place cmd n list).length = list.length + 1 :=
  (place_perm cmd n list).length_eq

theorem Queue.Promotes.lengths {n : NodeId} {accepted : Accepted}
    (promotes : queue.Promotes n accepted after) :
    after.active.length = queue.active.length + 1 ∧ after.pending = queue.pending.erase n := by
  obtain ⟨pending, -, mid, last, unlists, lists, rfl⟩ := promotes
  have moved : (last.markActive accepted.cmd).active.length = queue.active.length + 1 ∧
      (last.markActive accepted.cmd).pending = queue.pending.erase n := by
    rw [markActive_active, markActive_pending, lists.active, lists.pending, unlists.active,
      unlists.pending]
    exact ⟨length_place _ _ _, rfl⟩
  dsimp only
  split <;> exact moved

theorem Queue.Walked.scan {call : CancelCall} {isActive : Bool} {allowed : Bool}
    (walked : queue.Walked call isActive new after) (silent : frame.counts = false)
    (cancels : isActive = true → frame.cancels? = some call) :
    ScanRan queue allowed frame new after := by
  cases walked with
  | ended remarked last =>
    refine .quiet (by rw [remarked.active]) remarked.pending silent ?_
    rcases last with ⟨-, rfl⟩ | ⟨-, rfl⟩ <;> rfl
  | removed remarked member chosen content unmarked unlists =>
    have active := unlists.active
    have pending := unlists.pending
    rw [remarked.active] at active
    rw [remarked.pending] at pending
    cases isActive with
    | true =>
      have listed : _ ∈ queue.active := member
      refine .cancelActive ?_ pending silent rfl (cancels rfl) listed chosen
      have shorter := congrArg List.length active
      rw [if_pos rfl, List.length_erase_of_mem listed] at shorter
      have nonempty := List.length_pos_of_mem listed
      change _ + 1 = _
      rw [show (Queue.freeNode _ _).active.length = _ from shorter]
      omega
    | false =>
      refine .cancelPending ?_ (List.ne_nil_of_mem member) silent rfl
      exact congrArg List.length active

theorem Ran.scan (ran : Ran queue choice frame new after callbacks)
    (kind : queue.kind = .scan) (fits : frame.Fits queue.kind) :
    ScanRan queue choice.lookups.isActiveScanCmdAllowed frame new after := by
  cases ran with
  | activate | notStarted | activated | release | cancelNotify | timeoutNotify =>
    exact .quiet rfl rfl rfl rfl
  | settle goesOn =>
    refine .quiet rfl rfl rfl ?_
    rcases goesOn with rfl | rfl | ⟨call, rfl⟩ <;> rfl
  | notFound remarked =>
    exact .quiet (by rw [remarked.active]) remarked.pending rfl rfl
  | @dequeue _ n accepted mid active content unmarked unlists =>
    have less := unlists.active
    rw [if_pos rfl] at less
    refine .dequeue ?_ ?_ rfl rfl rfl
    · change (mid.markRemoved n accepted.cmd.vdev).active.length + 1 = _
      have nonempty := List.length_pos_of_mem active
      rw [Queue.markRemoved_active, less, List.length_erase_of_mem active]
      omega
    · exact (Queue.markRemoved_pending _ _).trans unlists.pending
  | stay moves remarked stuck =>
    have counts : frame.counts = true := by
      cases frame <;> first | rfl | exact moves.elim | simp [Frame.Fits, kind] at fits
    exact .stay (by rw [remarked.active]) remarked.pending counts rfl (stuck kind)
  | @move _ _ n accepted marked _ moves remarked promotes allowed _ _ _ goesOn =>
    have counts : frame.counts = true := by
      cases frame <;> first | rfl | exact moves.elim | simp [Frame.Fits, kind] at fits
    refine .move ?_ ?_ counts ?_ (allowed kind)
    · rw [promotes.lengths.1, remarked.active]
    · rw [← remarked.pending]
      exact List.ne_nil_of_mem promotes.pending
    · rcases goesOn with ⟨-, rfl⟩ | ⟨-, lookup, -, rfl⟩ <;> rfl
  | @cancel call isActive _ _ walked =>
    exact walked.scan rfl fun active => by simp [Frame.cancels?, active]
  | @cancelResume cmd cancelling _ _ walked =>
    have same : queue.settleCancel cmd cancelling.isActive = queue := by
      simp [Queue.settleCancel, kind]
    rw [same] at walked
    exact walked.scan rfl fun active => by simp [Frame.cancels?, active]
  | stopped _ nonScan => simp [kind] at nonScan
  | timeout goesOn =>
    refine .quiet rfl rfl rfl ?_
    rcases goesOn with rfl | ⟨-, rfl⟩ <;> rfl

end Steps

end VendorModules.Ser
