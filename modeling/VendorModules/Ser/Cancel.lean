import VendorModules.Lib.Cursor
import VendorModules.Ser.Runs

namespace VendorModules.Ser

open Lib

inductive CancelStatus
  | notFound
  | inPendingList
  | inActiveList
  | markedForActivation
  deriving DecidableEq, Repr

/-- The node with `CMD_ACTIVE_MARKED_FOR_CANCEL` set. -/
def Node.flag (node : Node) : Node :=
  node.setMarks fun marks => { marks with markedForCancel := true }

theorem Node.flag_eq_self {node : Node} (already : node.marks.markedForCancel = true) :
    node.flag = node := by
  unfold flag setMarks
  rw [← already]

namespace Queue

/-- The loop of both cancellation functions, with nobody else at the queue while the callbacks
are made. There is no result when it goes on from a node that is not on the list. -/
def cancelLoop (queue : Queue) (call : CancelCall) (isActive hasPsoc : Bool)
    (timerStops : NodeId → Bool) (status : CancelStatus) (here passed : Option NodeId) :
    Nat → Option (CancelStatus × Queue)
  | 0 => some (status, queue)
  | left + 1 =>
    if (queue.pdevList isActive).isEmpty then some (status, queue)
    else
      match nextInList (queue.pdevList isActive) here with
      | none => none
      | some none => some (.notFound, queue)
      | some (some n) =>
        if queue.isSkipped call n then
          queue.cancelLoop call isActive hasPsoc timerStops status (some n) (some n) left
        else if isActive && !hasPsoc then some (.notFound, queue)
        else if isActive && (queue.node n).marks.markedForActivation then
          -- The node becomes the one to go on from, but not the one passed last.
          (queue.setMarks n fun marks => { marks with markedForCancel := true })
            |>.cancelLoop call isActive hasPsoc timerStops .markedForActivation (some n)
              passed left
        else if isActive && !timerStops n then some (.notFound, queue)
        else
          match (queue.node n).content with
          | none => some (.notFound, queue.unlink n isActive)
          | some accepted =>
            let settled := (queue.unlink n isActive).settleCancel accepted.cmd isActive
            let status := if isActive then .inActiveList else .inPendingList
            if queue.kind = .nonScan ∧ call.vdev = none ∧ call.pdev = false then
              some (status, settled)
            else
              settled.cancelLoop call isActive hasPsoc timerStops status passed passed left

def hasPsoc (queue : Queue) (call : CancelCall) : Bool :=
  call.pdev || call.vdev.isSome || call.cmd.any fun cmd => (cmd.resolve queue).vdev.isSome

/-- `wlan_ser_cancel_non_scan_cmd` and `wlan_ser_cancel_scan_cmd` up to where they release the
lock. -/
def cancelCmd (queue : Queue) (call : CancelCall) (isActive : Bool)
    (timerStops : NodeId → Bool) : Option (CancelStatus × Queue) :=
  queue.cancelLoop call isActive (queue.hasPsoc call) timerStops .notFound none none
    (queue.pdevList isActive).length

def goOn (kind : Kind) (call : CancelCall) (isActive hasPsoc timerStops : Bool) :
    WalkEnd × Queue → Option Queue
  | (.ended, queue) => some queue
  | (.astray, _) => none
  | (.removed accepted walk, queue) =>
    let settled := queue.settleCancel accepted.cmd isActive
    if kind = .nonScan ∧ call.vdev = none ∧ call.pdev = false then some settled
    else
      (settled.cancelLoop call isActive hasPsoc (fun _ => timerStops)
        (if isActive then .inActiveList else .inPendingList) walk.here walk.passed
        walk.left).map Prod.snd

theorem cancelLoop_eq_cancelWalk {queue : Queue} {call : CancelCall}
    {isActive hasPsoc timerStops : Bool} {status : CancelStatus}
    {here passed : Option NodeId} {left : Nat} :
    (queue.cancelLoop call isActive hasPsoc (fun _ => timerStops) status here passed
        left).map Prod.snd =
      goOn queue.kind call isActive hasPsoc timerStops
        (queue.cancelWalk call isActive hasPsoc timerStops here passed left) := by
  induction left generalizing queue status here passed with
  | zero => rfl
  | succ left ih =>
    unfold cancelLoop cancelWalk
    by_cases empty : (queue.pdevList isActive).isEmpty = true
    · rw [if_pos empty, if_pos empty]
      rfl
    rw [if_neg empty, if_neg empty]
    cases next : nextInList (queue.pdevList isActive) here with
    | none => rfl
    | some found =>
      cases found with
      | none => rfl
      | some n =>
        dsimp only
        by_cases skipped : queue.isSkipped call n = true
        · rw [if_pos skipped, if_pos skipped]
          exact ih
        rw [if_neg skipped, if_neg skipped]
        by_cases lost : (isActive && !hasPsoc) = true
        · rw [if_pos lost, if_pos lost]
          rfl
        rw [if_neg lost, if_neg lost]
        by_cases marked : (isActive && (queue.node n).marks.markedForActivation) = true
        · rw [if_pos marked, if_pos marked]
          exact ih
        rw [if_neg marked, if_neg marked]
        by_cases late : (isActive && !timerStops) = true
        · rw [if_pos late, if_pos late]
          rfl
        rw [if_neg late, if_neg late]
        cases (queue.node n).content with
        | none => rfl
        | some accepted =>
          dsimp only [goOn]
          split_ifs <;> rfl

section Conditions

variable (queue : Queue) (call : CancelCall) (isActive : Bool)

def verdict (n : NodeId) : Verdict :=
  if queue.isSkipped call n then .pass
  else if isActive && (queue.node n).marks.markedForActivation then .mark
  else .take

def Unsettled (n : NodeId) : Prop :=
  queue.isSkipped call n = false ∧
    ¬(((queue.node n).marks.markedForActivation = true ∨
        (queue.node n).marks.markedForMovement = true) ∧
      (queue.node n).marks.markedForCancel = true)

structure Settles (after : Queue) : Prop where
  /-- A command that the request is about is gone, or it is being activated or moved, and
  flagged. -/
  matching : ∀ n ∈ after.pdevList isActive, queue.isSkipped call n = false →
    ((after.node n).marks.markedForActivation = true ∨
        (after.node n).marks.markedForMovement = true) ∧
      (after.node n).marks.markedForCancel = true
  /-- The other commands are in their places, as they were. -/
  inPlace : (after.pdevList isActive).filter (queue.isSkipped call) =
    (queue.pdevList isActive).filter (queue.isSkipped call)
  untouched : ∀ n ∈ queue.pdevList isActive, queue.isSkipped call n = true →
    after.node n = queue.node n
  inOrder : (after.pdevList isActive).Sublist (queue.pdevList isActive)
  twins : queue.kind = .nonScan → ∀ vdev,
    after.vdevList isActive vdev = (after.pdevList isActive).filter (queue.isOn vdev)
  otherList : after.pdevList (!isActive) = queue.pdevList (!isActive)

structure Reaches (timerStops : NodeId → Bool) : Prop where
  psoc : isActive = true → queue.hasPsoc call = false →
    ∀ n ∈ queue.pdevList isActive, ¬queue.Unsettled call n
  /-- No timer is missed up to the command: the loop would end there. -/
  timers : isActive = true → ∀ before n behind,
    queue.pdevList isActive = before ++ n :: behind → queue.Unsettled call n →
      ∀ m ∈ before ++ [n], queue.verdict call isActive m = .take → timerStops m = true
  /-- The commands behind it outnumber those that are walked over again before it. -/
  steps : ∀ before n behind, queue.pdevList isActive = before ++ n :: behind →
    queue.Unsettled call n →
      Cursor.rewalked (queue.verdict call isActive) 0 before ≤ behind.length

def Lasting : Prop :=
  queue.kind = .scan → ∀ t n, call.cmd = some (.node t) →
    [t, n].Sublist (queue.pdevList isActive) → queue.verdict call isActive t = .take →
      (queue.setNode t {}).isSkipped call n = queue.isSkipped call n ∨
        queue.verdict call isActive n = .mark ∧ (queue.node n).marks.markedForCancel = true

end Conditions

/-! ### The loop as a walk -/

variable {start queue after : Queue} {vdevs : Finset VdevId} {call : CancelCall}
  {isActive hasPsoc : Bool} {n : NodeId}

theorem nextInList_append {front rest : List NodeId} (once : (front ++ rest).Nodup) :
    nextInList (front ++ rest) front.getLast? = some rest.head? := by
  induction front using List.reverseRecOn with
  | nil => rfl
  | append_singleton init last =>
    have fresh : ∀ m ∈ init, decide (m ≠ last) = true := by
      intro m mem
      rw [List.append_assoc, List.nodup_append] at once
      have apart := once.2.2 m mem last (by simp)
      simpa using apart
    have there : last ∈ init ++ [last] ++ rest := by simp
    rw [List.getLast?_concat]
    simp only [nextInList]
    rw [if_pos there, List.append_assoc, List.dropWhile_append_of_pos fresh]
    simp

theorem isSkipped_congr (kind : after.kind = queue.kind)
    (content : (after.node n).content = (queue.node n).content)
    (resolve : ∀ target, call.cmd = some target → target.resolve after = target.resolve queue) :
    after.isSkipped call n = queue.isSkipped call n := by
  have key : (after.node n).key = (queue.node n).key := by simp only [Node.key, content]
  have vdev : (after.node n).vdev? = (queue.node n).vdev? := by simp only [Node.vdev?, content]
  have blocking : (after.node n).isBlocking = (queue.node n).isBlocking := by
    simp only [Node.isBlocking, content]
  unfold isSkipped
  rw [kind]
  cases asked : call.cmd with
  | none => simp only [key, vdev, blocking, Option.any_none]
  | some target => simp only [key, vdev, blocking, resolve target asked, Option.any_some]

@[simp] theorem settleCancel_node (cmd : Command) :
    (queue.settleCancel cmd isActive).node = queue.node := by
  unfold settleCancel
  split
  · rfl
  · split_ifs <;> rfl

@[simp] theorem settleCancel_pdevList (cmd : Command) (other : Bool) :
    (queue.settleCancel cmd isActive).pdevList other = queue.pdevList other := by
  unfold settleCancel
  split
  · rfl
  · split_ifs <;> rfl

@[simp] theorem settleCancel_vdevList (cmd : Command) (other : Bool) (vdev : VdevId) :
    (queue.settleCancel cmd isActive).vdevList other vdev = queue.vdevList other vdev := by
  unfold settleCancel
  split
  · rfl
  · split_ifs <;> rfl

theorem settled_node {accepted : Accepted} (isActive : Bool)
    (content : (queue.node n).content = some accepted) (m : NodeId) :
    ((queue.unlink n isActive).settleCancel accepted.cmd isActive).node m =
      if m = n then {} else queue.node m := by
  obtain ⟨mid, unlists, unlinked⟩ := @unlink_unlists queue n isActive accepted content
  rw [settleCancel_node, unlinked, ← unlists.node]
  split
  · next same =>
      rw [same]
      exact setNode_self _ _ _
  · next apart => exact setNode_of_ne _ _ _ apart

theorem settled_kind {accepted : Accepted} (isActive : Bool)
    (content : (queue.node n).content = some accepted) :
    ((queue.unlink n isActive).settleCancel accepted.cmd isActive).kind = queue.kind := by
  obtain ⟨mid, unlists, unlinked⟩ := @unlink_unlists queue n isActive accepted content
  rw [settleCancel_kind, unlinked]
  exact unlists.kind

theorem isSkipped_scan {t m : NodeId} (kind : queue.kind = .scan)
    (asked : call.cmd = some (.node t)) :
    queue.isSkipped call m = (((queue.node m).key.cmdId != (queue.node t).key.cmdId ||
      (queue.node m).key.cmdType != (queue.node t).key.cmdType) ||
        call.vdev.any fun vdev => (queue.node m).vdev? != some vdev) := by
  simp only [isSkipped, kind, asked, Option.any_some, Target.resolve]

structure Stage (start queue : Queue) (isActive : Bool) (list flagged : List NodeId) : Prop where
  kind : queue.kind = start.kind
  pdev : queue.pdevList isActive = list
  other : queue.pdevList (!isActive) = start.pdevList (!isActive)
  twins : start.kind = .nonScan → ∀ vdev,
    queue.vdevList isActive vdev = list.filter (start.isOn vdev)
  node : ∀ n ∈ list, queue.node n =
    if n ∈ flagged then (start.node n).flag else start.node n
  freed : ∀ n ∈ start.pdevList isActive, n ∉ list → queue.node n = {}
  elsewhere : ∀ n, n ∉ start.pdevList isActive → queue.node n = start.node n

namespace Stage

variable {list flagged : List NodeId} (stage : Stage start queue isActive list flagged)

theorem begin (linked : start.Linked vdevs) :
    Stage start start isActive (start.pdevList isActive) [] where
  kind := rfl
  pdev := rfl
  other := rfl
  twins kind vdev := linked.ofVdev kind isActive vdev
  node n _ := by simp
  freed n mem gone := absurd mem gone
  elsewhere _ _ := rfl

include stage

theorem content (mem : n ∈ list) : (queue.node n).content = (start.node n).content := by
  rw [stage.node n mem]
  split <;> rfl

theorem activation (mem : n ∈ list) : (queue.node n).marks.markedForActivation =
    (start.node n).marks.markedForActivation := by
  rw [stage.node n mem]
  split <;> rfl

theorem mark (mem : n ∈ list) (sub : list ⊆ start.pdevList isActive) :
    Stage start (queue.setMarks n fun marks => { marks with markedForCancel := true })
      isActive list (flagged ++ [n]) := by
  refine ⟨stage.kind, stage.pdev, stage.other, stage.twins, fun m there => ?_,
    fun m there gone => ?_, fun m outside => ?_⟩
  · change (queue.setNode n (queue.node n).flag).node m = _
    by_cases same : m = n
    · subst same
      have now : m ∈ flagged ++ [m] := by simp
      rw [setNode_self, stage.node m there, if_pos now]
      split <;> rfl
    · rw [setNode_of_ne _ _ _ same, stage.node m there]
      simp [same]
  · have apart : m ≠ n := fun same => gone (same ▸ mem)
    exact (setNode_of_ne _ _ _ apart).trans (stage.freed m there gone)
  · have apart : m ≠ n := fun same => outside (same ▸ sub mem)
    exact (setNode_of_ne _ _ _ apart).trans (stage.elsewhere m outside)

theorem take {accepted : Accepted} (once : list.Nodup) (mem : n ∈ list)
    (sub : list ⊆ start.pdevList isActive)
    (content : (queue.node n).content = some accepted) :
    Stage start ((queue.unlink n isActive).settleCancel accepted.cmd isActive)
      isActive (list.erase n) flagged := by
  obtain ⟨mid, unlists, unlinked⟩ := @unlink_unlists queue n isActive accepted content
  have vdev : (queue.node n).vdev? = (start.node n).vdev? := by
    simp only [Node.vdev?, stage.content mem]
  refine ⟨?_, ?_, ?_, fun kind v => ?_, fun m there => ?_, fun m there gone => ?_,
    fun m outside => ?_⟩
  · rw [settleCancel_kind, unlinked]
    exact unlists.kind.trans stage.kind
  · rw [settleCancel_pdevList, unlinked]
    exact (unlists.pdev isActive).trans (by rw [if_pos rfl, stage.pdev])
  · rw [settleCancel_pdevList, unlinked]
    exact (unlists.pdev (!isActive)).trans (by rw [if_neg (by simp), stage.other])
  · rw [settleCancel_vdevList, unlinked]
    refine (unlists.vdev (stage.kind.trans kind) isActive v).trans ?_
    rw [stage.twins kind, vdev, filter_isOn_erase once]
    simp only [true_and]
  · have apart : m ≠ n := fun same => by
      subst same
      exact once.not_mem_erase there
    rw [settled_node isActive content, if_neg apart]
    exact stage.node m (List.mem_of_mem_erase there)
  · rw [settled_node isActive content]
    split
    · rfl
    · next apart =>
        exact stage.freed m there fun kept => gone ((List.mem_erase_of_ne apart).2 kept)
  · have apart : m ≠ n := fun same => outside (same ▸ sub mem)
    rw [settled_node isActive content, if_neg apart]
    exact stage.elsewhere m outside

theorem more {extra : List NodeId}
    (same : ∀ m ∈ extra, m ∈ list → m ∈ flagged ∨ (start.node m).marks.markedForCancel = true) :
    Stage start queue isActive list (flagged ++ extra) := by
  refine ⟨stage.kind, stage.pdev, stage.other, stage.twins, fun m there => ?_, stage.freed,
    stage.elsewhere⟩
  rw [stage.node m there]
  by_cases before : m ∈ flagged
  · rw [if_pos before, if_pos (List.mem_append_left _ before)]
  · rw [if_neg before]
    split
    · next now =>
        have new : m ∈ extra := (List.mem_append.1 now).resolve_left before
        exact (Node.flag_eq_self ((same m new there).resolve_left before)).symm
    · rfl

end Stage

theorem Linked.eq_of_key (linked : start.Linked vdevs) (kind : start.kind = .nonScan)
    {m : NodeId} (there : n ∈ start.pdevList isActive) (also : m ∈ start.pdevList isActive)
    (same : (start.node n).key = (start.node m).key) : n = m := by
  cases isActive with
  | false => exact linked.keys kind n there m also same
  | true =>
    have vdev : ∀ node : Node, node.key.vdev = node.vdev? := by
      intro node
      unfold Node.key Node.vdev?
      cases node.content <;> rfl
    refine linked.single kind n there m also ?_
    rw [← vdev, ← vdev, same]

theorem Linked.isSkipped_of_named (linked : start.Linked vdevs) (kind : start.kind = .nonScan)
    (named : call.cmd.isSome) {x : NodeId} (there : x ∈ start.pdevList isActive)
    (also : n ∈ start.pdevList isActive) (meant : start.isSkipped call x = false)
    (apart : n ≠ x) : start.isSkipped call n = true := by
  obtain ⟨target, asked⟩ := Option.isSome_iff_exists.1 named
  have own : (start.node x).key = target.resolve start := by
    by_contra differs
    simp [isSkipped, kind, asked, differs] at meant
  have differs : (start.node n).key ≠ target.resolve start := by
    rw [← own]
    exact fun same => apart (linked.eq_of_key kind also there same)
  simp [isSkipped, kind, asked, differs]

theorem isSkipped_setMarks {x : NodeId} {change : Marks → Marks} :
    (queue.setMarks x change).isSkipped call n = queue.isSkipped call n := by
  have content : ∀ m, ((queue.setMarks x change).node m).content = (queue.node m).content :=
    fun m => setMarks_content
  refine isSkipped_congr rfl (content n) fun target _ => ?_
  cases target with
  | key wanted => rfl
  | node t => simp only [Target.resolve, Node.key, content]

theorem verdict_pass_iff :
    start.verdict call isActive n = .pass ↔ start.isSkipped call n = true := by
  unfold verdict
  split_ifs <;> simp [*]

theorem verdict_mark_iff :
    start.verdict call isActive n = .mark ↔ start.isSkipped call n = false ∧
      isActive = true ∧ (start.node n).marks.markedForActivation = true := by
  unfold verdict
  split_ifs <;> simp_all

theorem verdict_take_iff :
    start.verdict call isActive n = .take ↔ start.isSkipped call n = false ∧
      ¬(isActive = true ∧ (start.node n).marks.markedForActivation = true) := by
  unfold verdict
  split_ifs <;> simp_all

variable {list flagged : List NodeId} {x : NodeId}

theorem Stage.judged (stage : Stage start queue isActive list flagged)
    (linked : start.Linked vdevs) (lasting : start.Lasting call isActive)
    (order : list.Sublist (start.pdevList isActive)) (mem : x ∈ list)
    (verdict : start.verdict call isActive x = .take) (kind : after.kind = queue.kind)
    (freed : ∀ m, after.node m = if m = x then {} else queue.node m) :
    (∀ y ∈ list, y ≠ x → queue.isSkipped call y = start.isSkipped call y →
      after.isSkipped call y = start.isSkipped call y) ∨
    ∀ y ∈ list, y ≠ x →
      (start.verdict call isActive y = .mark → after.isSkipped call y = true) ∧
      ([x, y].Sublist list →
        after.isSkipped call y = true ∧ (start.verdict call isActive y = .pass ∨
          start.verdict call isActive y = .mark ∧
            (start.node y).marks.markedForCancel = true)) := by
  have kept : ∀ y, y ≠ x → after.node y = queue.node y := fun y apart => by
    rw [freed, if_neg apart]
  have own : after.node x = {} := by rw [freed, if_pos rfl]
  have all := order.subset
  by_cases target : call.cmd = some (.node x)
  · cases which : start.kind with
    | nonScan =>
      left
      intro y there apart _
      rw [linked.isSkipped_of_named which (by simp [target]) (all mem) (all there)
        (verdict_take_iff.1 verdict).1 apart]
      obtain ⟨held, filled, -⟩ := linked.filled y (listed_of_pdevList (all there))
      have kind' : after.kind = .nonScan := by rw [kind, stage.kind, which]
      have node : (after.node y).content = some held := by
        rw [kept y apart, stage.content there, filled]
      have key : (after.node y).key ≠ (after.node x).key := by
        rw [own]
        simp [Node.key, node, Command.key]
      simp [isSkipped, kind', target, Target.resolve, key]
    | scan =>
      have judged : ∀ y ∈ list, y ≠ x → after.isSkipped call y =
          (start.setNode x {}).isSkipped call y := by
        intro y there apart
        refine isSkipped_congr (kind.trans stage.kind) ?_ fun asked is => ?_
        · rw [kept y apart, setNode_of_ne _ _ _ apart, stage.content there]
        · rw [target] at is
          cases is
          simp only [Target.resolve, own, setNode_self]
      have which' : (start.setNode x {}).kind = .scan := which
      have empty : ({} : Node).key = { cmdType := .scan, cmdId := 0, vdev := none } := rfl
      by_cases zero : (start.node x).key.cmdId = 0 ∧ (start.node x).key.cmdType = .scan
      · left
        intro y there apart _
        rw [judged y there apart, isSkipped_scan which' target, isSkipped_scan which target,
          setNode_self, setNode_of_ne _ _ _ apart, empty, zero.1, zero.2]
      · right
        intro y there apart
        have differs : start.isSkipped call y = false →
            (start.setNode x {}).isSkipped call y = true := by
          intro meant
          rw [isSkipped_scan which target] at meant
          simp only [Bool.or_eq_false_iff, bne_eq_false_iff_eq] at meant
          rw [isSkipped_scan which' target, setNode_self, setNode_of_ne _ _ _ apart, empty,
            meant.1.1, meant.1.2]
          by_contra same
          simp only [Bool.or_eq_true, bne_iff_ne, not_or, not_not] at same
          exact zero same.1
        refine ⟨fun marked => ?_, fun later => ?_⟩
        · rw [judged y there apart]
          exact differs (verdict_mark_iff.1 marked).1
        · rw [judged y there apart]
          rcases lasting which x y target (later.trans order) verdict with same | both
          · cases skipped : start.isSkipped call y with
            | true => exact ⟨same.trans skipped, .inl (verdict_pass_iff.2 skipped)⟩
            | false =>
              rw [differs skipped, skipped] at same
              cases same
          · exact ⟨differs (verdict_mark_iff.1 both.1).1, .inr both⟩
  · left
    intro y there apart steady
    rw [← steady]
    refine isSkipped_congr kind (by rw [kept y apart]) ?_
    intro asked is
    cases asked with
    | key wanted => rfl
    | node t =>
      have other : t ≠ x := by
        intro same
        rw [same] at is
        exact target is
      simp only [Target.resolve, kept t other]

/-! ### The steps of the loop -/

section Step

variable {timerStops : NodeId → Bool} {status : CancelStatus} {passed : Option NodeId}
  {left : Nat} {front rest : List NodeId}
  (pdev : queue.pdevList isActive = front ++ n :: rest) (once : (front ++ n :: rest).Nodup)

include pdev once

theorem cancelLoop_pass (skipped : queue.isSkipped call n = true) :
    queue.cancelLoop call isActive hasPsoc timerStops status front.getLast? passed (left + 1) =
      queue.cancelLoop call isActive hasPsoc timerStops status (some n) (some n) left := by
  rw [Queue.cancelLoop, pdev, if_neg (by simp), nextInList_append once]
  exact if_pos skipped

theorem cancelLoop_lost (meant : queue.isSkipped call n = false)
    (lost : (isActive && !hasPsoc) = true) :
    queue.cancelLoop call isActive hasPsoc timerStops status front.getLast? passed (left + 1) =
      some (.notFound, queue) := by
  rw [Queue.cancelLoop, pdev, if_neg (by simp), nextInList_append once]
  dsimp only [List.head?_cons]
  rw [if_neg (by simp [meant]), if_pos lost]

theorem cancelLoop_mark (meant : queue.isSkipped call n = false)
    (found : ¬(isActive && !hasPsoc) = true)
    (marked : (isActive && (queue.node n).marks.markedForActivation) = true) :
    queue.cancelLoop call isActive hasPsoc timerStops status front.getLast? passed (left + 1) =
      (queue.setMarks n fun marks => { marks with markedForCancel := true }).cancelLoop call
        isActive hasPsoc timerStops .markedForActivation (some n) passed left := by
  rw [Queue.cancelLoop, pdev, if_neg (by simp), nextInList_append once]
  dsimp only [List.head?_cons]
  rw [if_neg (by simp [meant]), if_neg found, if_pos marked]

theorem cancelLoop_late (meant : queue.isSkipped call n = false)
    (found : ¬(isActive && !hasPsoc) = true)
    (unmarked : ¬(isActive && (queue.node n).marks.markedForActivation) = true)
    (late : (isActive && !timerStops n) = true) :
    queue.cancelLoop call isActive hasPsoc timerStops status front.getLast? passed (left + 1) =
      some (.notFound, queue) := by
  rw [Queue.cancelLoop, pdev, if_neg (by simp), nextInList_append once]
  dsimp only [List.head?_cons]
  rw [if_neg (by simp [meant]), if_neg found, if_neg unmarked, if_pos late]

theorem cancelLoop_take {accepted : Accepted} (meant : queue.isSkipped call n = false)
    (found : ¬(isActive && !hasPsoc) = true)
    (unmarked : ¬(isActive && (queue.node n).marks.markedForActivation) = true)
    (stops : ¬(isActive && !timerStops n) = true)
    (content : (queue.node n).content = some accepted) :
    queue.cancelLoop call isActive hasPsoc timerStops status front.getLast? passed (left + 1) =
      if queue.kind = .nonScan ∧ call.vdev = none ∧ call.pdev = false then
        some (if isActive then .inActiveList else .inPendingList,
          (queue.unlink n isActive).settleCancel accepted.cmd isActive)
      else
        ((queue.unlink n isActive).settleCancel accepted.cmd isActive).cancelLoop call isActive
          hasPsoc timerStops (if isActive then .inActiveList else .inPendingList) passed passed
          left := by
  rw [Queue.cancelLoop, pdev, if_neg (by simp), nextInList_append once]
  dsimp only [List.head?_cons]
  rw [if_neg (by simp [meant]), if_neg found, if_neg unmarked, if_neg stops]
  simp only [content]

end Step

theorem cancelLoop_nil (pdev : queue.pdevList isActive = list) (once : list.Nodup)
    (timerStops : NodeId → Bool) (status : CancelStatus) (passed : Option NodeId)
    (left : Nat) :
    ∃ last, queue.cancelLoop call isActive hasPsoc timerStops status list.getLast? passed
      left = some (last, queue) := by
  cases left with
  | zero => exact ⟨status, rfl⟩
  | succ left =>
    unfold Queue.cancelLoop
    split
    · exact ⟨_, rfl⟩
    · have next := @nextInList_append list [] (by simpa using once)
      rw [List.append_nil] at next
      rw [pdev, next]
      exact ⟨_, rfl⟩

theorem cancelLoop_still (hasPsoc : Bool) (timerStops : NodeId → Bool)
    (status : CancelStatus) (passed : Option NodeId) (left : Nat) {front rest : List NodeId}
    (pdev : queue.pdevList isActive = front ++ rest) (once : (front ++ rest).Nodup)
    (still : (isActive && !hasPsoc) = true ∨ ∀ n ∈ rest, queue.isSkipped call n = true) :
    ∃ last, queue.cancelLoop call isActive hasPsoc timerStops status front.getLast? passed
      left = some (last, queue) := by
  induction rest generalizing front passed left with
  | nil =>
    rw [List.append_nil] at pdev once
    exact cancelLoop_nil pdev once timerStops status passed left
  | cons x rest ih =>
    cases left with
    | zero => exact ⟨status, rfl⟩
    | succ left =>
      cases skipped : queue.isSkipped call x with
      | true =>
        rw [cancelLoop_pass pdev once skipped]
        have others := still.imp_right fun all n mem =>
          all n (List.mem_cons_of_mem _ mem)
        have next := @ih (some x) left (front ++ [x]) (by rw [pdev]; simp)
          (by simpa using once) others
        rwa [List.getLast?_concat] at next
      | false =>
        have lost := still.resolve_right fun all => by
          rw [all x List.mem_cons_self] at skipped
          cases skipped
        exact ⟨_, cancelLoop_lost pdev once skipped lost⟩

/-! ### The loop as a walk -/

variable {timerStops : NodeId → Bool} {front marks rest tail : List NodeId}

theorem Stage.idle (call : CancelCall) (left : Nat)
    (stage : Stage start queue isActive (front ++ (rest ++ tail)) flagged)
    (keeps : ∀ n ∈ rest, start.verdict call isActive n = .pass ∨
      start.verdict call isActive n = .mark ∧
        (n ∈ flagged ∨ (start.node n).marks.markedForCancel = true)) :
    Stage start queue isActive
      ((Cursor.walk (start.verdict call isActive) left front [] rest).1 ++ tail)
      (flagged ++ (Cursor.walk (start.verdict call isActive) left front [] rest).2) := by
  have none : ∀ n ∈ rest, start.verdict call isActive n ≠ .take := by
    intro n mem take
    rcases keeps n mem with pass | ⟨mark, -⟩
    · rw [take] at pass
      cases pass
    · rw [take] at mark
      cases mark
  have list : (Cursor.walk (start.verdict call isActive) left front [] rest).1 ++ tail =
      front ++ (rest ++ tail) := by
    rw [Cursor.walk_fst (by simp), Cursor.remains_eq_self none, List.append_nil,
      List.append_assoc]
  rw [list]
  refine stage.more fun n extra _ => ?_
  rcases Cursor.mem_walk_snd (by simp) extra with none | ⟨came, mark⟩
  · cases none
  · rcases keeps n (Cursor.visited_subset came) with pass | ⟨-, known⟩
    · rw [mark] at pass
      cases pass
    · exact known

theorem erase_middle (once : (front ++ marks ++ x :: rest).Nodup) :
    (front ++ marks ++ x :: rest).erase x = front ++ (marks ++ rest) := by
  have fresh : x ∉ front ++ marks := by
    intro there
    rw [List.nodup_append] at once
    exact once.2.2 x there x List.mem_cons_self rfl
  rw [List.erase_append_right _ fresh]
  simp

theorem ne_of_erase_middle (once : (front ++ marks ++ x :: rest).Nodup)
    (mem : n ∈ marks ++ rest) : n ≠ x := by
  intro same
  have gone := once.not_mem_erase (a := x)
  rw [erase_middle once] at gone
  exact gone (List.mem_append_right _ (same ▸ mem))

theorem Stage.behind (stage : Stage start queue isActive (front ++ marks ++ x :: rest) flagged)
    (linked : start.Linked vdevs) (lasting : start.Lasting call isActive)
    (order : (front ++ marks ++ x :: rest).Sublist (start.pdevList isActive))
    (all : ∀ n ∈ marks, start.verdict call isActive n = .mark) (seen : marks ⊆ flagged)
    (verdict : start.verdict call isActive x = .take)
    (steady : ∀ n ∈ marks ++ x :: rest, queue.isSkipped call n = start.isSkipped call n)
    (kind : after.kind = queue.kind)
    (freed : ∀ m, after.node m = if m = x then {} else queue.node m) :
    (∀ n ∈ marks ++ rest, after.isSkipped call n = start.isSkipped call n) ∨
    ∀ n ∈ marks ++ rest, after.isSkipped call n = true ∧
      (start.verdict call isActive n = .pass ∨ start.verdict call isActive n = .mark ∧
        (n ∈ flagged ∨ (start.node n).marks.markedForCancel = true)) := by
  have once := order.nodup (linked.nodup_pdevList isActive)
  have there : ∀ n ∈ marks ++ rest, n ∈ front ++ marks ++ x :: rest := by
    intro n mem
    rcases List.mem_append.1 mem with mem | mem <;> simp [mem]
  have apart : ∀ n ∈ marks ++ rest, n ≠ x := fun n mem => ne_of_erase_middle once mem
  rcases stage.judged linked lasting order (by simp) verdict kind freed with same | idle
  · left
    intro n mem
    refine same n (there n mem) (apart n mem) (steady n ?_)
    rcases List.mem_append.1 mem with mem | mem <;> simp [mem]
  · right
    intro n mem
    have both := idle n (there n mem) (apart n mem)
    rcases List.mem_append.1 mem with mark | later
    · exact ⟨both.1 (all n mark), .inr ⟨all n mark, .inl (seen mark)⟩⟩
    · have pair : [x, n].Sublist (x :: rest) :=
        (List.singleton_sublist.2 later).cons_cons x
      obtain ⟨skipped, stays⟩ := both.2 (pair.trans (List.sublist_append_right _ _))
      exact ⟨skipped, stays.imp_right fun mark => ⟨mark.1, .inr mark.2⟩⟩

/-- The loop makes the walk up to the first command that it should take but whose timer is
missed; it has the psoc. -/
theorem Stage.cancelLoop (linked : start.Linked vdevs) (lasting : start.Lasting call isActive)
    (asked : call.cmd.isSome ∨ call.pdev = true ∨ call.vdev.isSome)
    (psoc : isActive = true → hasPsoc = true)
    (timers : isActive = true → ∀ n ∈ start.pdevList isActive,
      start.verdict call isActive n = .take → timerStops n = true ∨ n ∈ tail)
    (stop : ∀ n ∈ tail.head?, isActive = true ∧ start.verdict call isActive n = .take ∧
      timerStops n = false)
    (status : CancelStatus) (left : Nat) {queue : Queue} {front marks rest flagged : List NodeId}
    (stage : Stage start queue isActive (front ++ marks ++ (rest ++ tail)) flagged)
    (order : (front ++ marks ++ (rest ++ tail)).Sublist (start.pdevList isActive))
    (all : ∀ n ∈ marks, start.verdict call isActive n = .mark) (seen : marks ⊆ flagged)
    (steady : ∀ n ∈ marks ++ (rest ++ tail),
      queue.isSkipped call n = start.isSkipped call n) :
    ∃ last after, queue.cancelLoop call isActive hasPsoc timerStops status
        (front ++ marks).getLast? front.getLast? left = some (last, after) ∧
      Stage start after isActive
        ((Cursor.walk (start.verdict call isActive) left front marks rest).1 ++ tail)
        (flagged ++ (Cursor.walk (start.verdict call isActive) left front marks rest).2) := by
  have found : ¬(isActive && !hasPsoc) = true := by
    rw [Bool.and_eq_true]
    rintro ⟨active, lost⟩
    simp [psoc active] at lost
  induction left generalizing queue front marks rest flagged status with
  | zero =>
    refine ⟨status, queue, rfl, ?_⟩
    simpa [Cursor.walk] using stage
  | succ left ih =>
    have sub := order.subset
    have once := order.nodup (linked.nodup_pdevList isActive)
    cases rest with
    | nil =>
      rw [List.nil_append] at stage order once steady sub
      have same : Stage start queue isActive
          ((Cursor.walk (start.verdict call isActive) (left + 1) front marks []).1 ++ tail)
          (flagged ++
            (Cursor.walk (start.verdict call isActive) (left + 1) front marks []).2) := by
        simpa [Cursor.walk] using stage
      cases tail with
      | nil =>
        rw [List.append_nil] at stage once
        obtain ⟨last, ran⟩ := cancelLoop_nil stage.pdev once timerStops status
          front.getLast? (left + 1)
        exact ⟨last, queue, ran, same⟩
      | cons x tail =>
        obtain ⟨active, verdict, late⟩ := stop x rfl
        obtain ⟨meant, unmarked⟩ := verdict_take_iff.1 verdict
        refine ⟨_, queue, cancelLoop_late stage.pdev once ?_ found ?_ ?_, same⟩
        · exact (steady x (by simp)).trans meant
        · rw [stage.activation (by simp), Bool.and_eq_true]
          exact unmarked
        · simp [active, late]
    | cons x rest =>
      rw [List.cons_append] at stage order once steady sub
      have mem : x ∈ front ++ marks ++ x :: (rest ++ tail) := by simp
      have here := steady x (by simp)
      cases verdict : start.verdict call isActive x with
      | pass =>
        rw [cancelLoop_pass stage.pdev once (here.trans (verdict_pass_iff.1 verdict))]
        have regroup : front ++ marks ++ x :: (rest ++ tail) =
            front ++ marks ++ [x] ++ [] ++ (rest ++ tail) := by
          simp
        rw [regroup] at stage order
        have next := ih status stage order (by simp) (by simp)
          fun n later => steady n (List.mem_append_right _ (List.mem_cons_of_mem _ later))
        simpa [Cursor.walk, verdict] using next
      | mark =>
        obtain ⟨meant, active, marked⟩ := verdict_mark_iff.1 verdict
        rw [cancelLoop_mark stage.pdev once (here.trans meant) found
          (by simp [active, stage.activation mem, marked])]
        have flagging := stage.mark mem sub
        have regroup : front ++ marks ++ x :: (rest ++ tail) =
            front ++ (marks ++ [x]) ++ (rest ++ tail) := by
          simp
        rw [regroup] at flagging order
        have now : marks ++ [x] ⊆ flagged ++ [x] :=
          List.append_subset.2 ⟨fun m there => List.mem_append_left _ (seen there),
            List.subset_append_right _ _⟩
        have next := ih .markedForActivation flagging order
          (Cursor.all_mark_append all verdict) now
          (fun n mem => by
            rw [isSkipped_setMarks]
            exact steady n (by simpa using mem))
        simpa [Cursor.walk, verdict] using next
      | take =>
        obtain ⟨meant, unmarked⟩ := verdict_take_iff.1 verdict
        obtain ⟨accepted, filled, -⟩ := linked.filled x (listed_of_pdevList (sub mem))
        have content := (stage.content mem).trans filled
        have notMarked : ¬(isActive && (queue.node x).marks.markedForActivation) = true := by
          rw [stage.activation mem, Bool.and_eq_true]
          exact unmarked
        have stops : ¬(isActive && !timerStops x) = true := by
          rw [Bool.and_eq_true]
          rintro ⟨active, late⟩
          have notLate := (timers active x (sub mem) verdict).resolve_right fun there => by
            simp [List.nodup_append, List.nodup_cons, there] at once
          simp [notLate] at late
        rw [cancelLoop_take stage.pdev once (here.trans meant) found notMarked stops content]
        have taken := stage.take once mem sub content
        have left' : (front ++ (marks ++ (rest ++ tail))).Sublist
            (front ++ marks ++ x :: (rest ++ tail)) := by
          rw [← erase_middle once]
          exact List.erase_sublist
        rw [erase_middle once, ← List.append_assoc marks] at taken
        rw [← List.append_assoc marks] at left'
        by_cases single : queue.kind = .nonScan ∧ call.vdev = none ∧ call.pdev = false
        · rw [if_pos single]
          have named : call.cmd.isSome := by
            rcases asked with named | pdev | vdev
            · exact named
            · rw [single.2.2] at pdev
              cases pdev
            · rw [single.2.1] at vdev
              cases vdev
          have idle := taken.idle call left fun n there => by
            have within := left'.subset (List.mem_append_right _
              (List.mem_append_left _ there))
            have apart : n ≠ x := ne_of_erase_middle once (by
              rw [← List.append_assoc]
              exact List.mem_append_left _ there)
            exact .inl (verdict_pass_iff.2 (linked.isSkipped_of_named
              (stage.kind.symm.trans single.1) named (sub mem) (sub within) meant apart))
          exact ⟨_, _, rfl, by simpa [Cursor.walk, verdict] using idle⟩
        · rw [if_neg single]
          rcases stage.behind linked lasting order all seen verdict steady
            (settled_kind isActive content) (settled_node isActive content) with same | idle
          · rw [List.append_assoc] at taken left'
            have next := @ih (if isActive then .inActiveList else .inPendingList) _ front []
              (marks ++ rest) flagged (by simpa using taken)
              (by simpa using left'.trans order) (by simp) (by simp) (by simpa using same)
            simpa [Cursor.walk, verdict] using next
          · rw [List.append_assoc] at left'
            have pdev := taken.pdev
            rw [List.append_assoc] at pdev
            obtain ⟨last, ran⟩ := cancelLoop_still hasPsoc timerStops
              (if isActive then .inActiveList else .inPendingList) front.getLast? left
              pdev (once.sublist left') (.inr fun n there => (idle n there).1)
            refine ⟨last, _, ran, ?_⟩
            have still := taken.idle call left fun n there =>
              (idle n (by rw [← List.append_assoc]; exact List.mem_append_left _ there)).2
            simpa [Cursor.walk, verdict] using still

/-! ### What a cancellation leaves -/

def inTime (queue : Queue) (call : CancelCall) (isActive : Bool) (timerStops : NodeId → Bool)
    (n : NodeId) : Bool :=
  decide (isActive = true → queue.verdict call isActive n = .take → timerStops n = true)

theorem inTime_iff : queue.inTime call isActive timerStops n = true ↔
    (isActive = true → queue.verdict call isActive n = .take → timerStops n = true) :=
  decide_eq_true_iff

theorem Stage.settles
    (stage : Stage start after isActive
      (Cursor.remains (start.verdict call isActive) rest left 0 ++ tail) flagged)
    (linked : start.Linked vdevs) (whole : start.pdevList isActive = rest ++ tail)
    (marked : ∀ n ∈ flagged, start.verdict call isActive n = .mark)
    (matching : ∀ n ∈ after.pdevList isActive, start.isSkipped call n = false →
      ((after.node n).marks.markedForActivation = true ∨
          (after.node n).marks.markedForMovement = true) ∧
        (after.node n).marks.markedForCancel = true) :
    start.Settles call isActive after := by
  have once := linked.nodup_pdevList isActive
  rw [whole] at once
  refine ⟨matching, ?_, fun n mem skipped => ?_, ?_, fun kind vdev => ?_, stage.other⟩
  · rw [stage.pdev, whole, List.filter_append, List.filter_append]
    congr 1
    refine Cursor.filter_remains fun n skipped takes => ?_
    rw [verdict_pass_iff.2 skipped] at takes
    cases takes
  · have pass : start.verdict call isActive n = .pass := verdict_pass_iff.2 skipped
    have stays : n ∈ Cursor.remains (start.verdict call isActive) rest left 0 ++ tail := by
      rw [whole] at mem
      refine List.mem_append.2 ((List.mem_append.1 mem).imp_left fun mem => ?_)
      refine (Cursor.mem_remains_iff once.of_append_left).2 ⟨mem, fun both => ?_⟩
      rw [pass] at both
      cases both.2
    rw [stage.node n stays, if_neg]
    intro flag
    have mark := marked n flag
    rw [pass] at mark
    cases mark
  · rw [stage.pdev, whole]
    exact Cursor.remains_sublist.append (List.Sublist.refl _)
  · rw [stage.pdev]
    exact stage.twins kind vdev

/-- With the psoc at hand, the loop settles the request exactly if it comes to all commands in
question. -/
theorem Linked.cancelLoop_settles_iff (linked : start.Linked vdevs)
    (lasting : start.Lasting call isActive)
    (asked : call.cmd.isSome ∨ call.pdev = true ∨ call.vdev.isSome)
    (psoc : isActive = true → start.hasPsoc call = true) :
    ∃ last after, start.cancelCmd call isActive timerStops = some (last, after) ∧
      (start.Settles call isActive after ↔ start.Reaches call isActive timerStops) := by
  have once := linked.nodup_pdevList isActive
  obtain ⟨rest, is⟩ : ∃ rest, rest =
    (start.pdevList isActive).takeWhile (start.inTime call isActive timerStops) := ⟨_, rfl⟩
  obtain ⟨tail, late⟩ : ∃ tail, tail =
    (start.pdevList isActive).dropWhile (start.inTime call isActive timerStops) := ⟨_, rfl⟩
  have whole : start.pdevList isActive = rest ++ tail := by
    rw [is, late, List.takeWhile_append_dropWhile]
  have begun : Stage start start isActive ([] ++ [] ++ (rest ++ tail)) [] := by
    rw [← whole]
    exact Stage.begin linked
  have timers : isActive = true → ∀ n ∈ start.pdevList isActive,
      start.verdict call isActive n = .take → timerStops n = true ∨ n ∈ tail := by
    intro active n mem take
    rw [whole, List.mem_append] at mem
    refine mem.imp_left fun early => ?_
    rw [is] at early
    exact inTime_iff.1 (List.mem_takeWhile_imp early) active take
  have stop : ∀ n ∈ tail.head?, isActive = true ∧ start.verdict call isActive n = .take ∧
      timerStops n = false := by
    intro n head
    have missed := List.head?_dropWhile_not (start.inTime call isActive timerStops)
      (start.pdevList isActive)
    rw [← late, head] at missed
    simpa [inTime] using missed
  obtain ⟨last, after, ran, stage⟩ := begun.cancelLoop linked lasting asked psoc timers stop
    .notFound (start.pdevList isActive).length (by simp [whole]) (by simp) (by simp)
    (fun _ _ => rfl)
  refine ⟨last, after, ran, ?_⟩
  rw [Cursor.walk_fst (by simp), List.nil_append, List.nil_append, List.nil_append] at stage
  have flags : ∀ n ∈ (Cursor.walk (start.verdict call isActive)
      (start.pdevList isActive).length [] [] rest).2,
      n ∈ Cursor.visited (start.verdict call isActive) rest
        (start.pdevList isActive).length 0 ∧ start.verdict call isActive n = .mark := by
    intro n flag
    rcases Cursor.mem_walk_snd (by simp) flag with none | both
    · cases none
    · exact both
  constructor
  · intro settles
    have comes : ∀ n ∈ start.pdevList isActive, start.Unsettled call n →
        n ∈ Cursor.visited (start.verdict call isActive) rest
          (start.pdevList isActive).length 0 := by
      intro n mem unsettled
      by_contra unseen
      have stays : n ∈ after.pdevList isActive := by
        rw [whole] at mem once
        rw [stage.pdev, List.mem_append, Cursor.mem_remains_iff once.of_append_left]
        exact (List.mem_append.1 mem).imp_left fun mem => ⟨mem, fun both => unseen both.1⟩
      have same : after.node n = start.node n := by
        rw [stage.pdev] at stays
        rw [stage.node n stays, if_neg]
        exact fun flag => unseen (flags n flag).1
      have matched := settles.matching n stays unsettled.1
      rw [same] at matched
      exact unsettled.2 matched
    refine ⟨fun active lost => ?_, fun active before n behind split unsettled => ?_,
      fun before n behind split unsettled => ?_⟩
    · rw [psoc active] at lost
      cases lost
    · have came := Cursor.visited_subset (comes n (by rw [split]; simp) unsettled)
      rw [is] at came
      intro m mem take
      exact inTime_iff.1 (Cursor.all_of_mem_takeWhile once split came m mem) active take
    · have came := comes n (by rw [split]; simp) unsettled
      have early := Cursor.visited_subset came
      rw [is] at early
      have front := Cursor.takeWhile_of_all split
        (Cursor.all_of_mem_takeWhile once split early)
      rw [← is] at front
      by_contra few
      have bound : (start.pdevList isActive).length ≤
          before.length + Cursor.rewalked (start.verdict call isActive) 0 before := by
        rw [split, List.length_append, List.length_cons]
        omega
      rw [front] at came
      have again := (Cursor.visited_sublist bound).subset came
      rw [split, List.nodup_append] at once
      exact once.2.2 n again n List.mem_cons_self rfl
  · intro reaches
    refine stage.settles linked whole (fun n flag => (flags n flag).2) fun n stays meant => ?_
    rw [stage.pdev] at stays
    have mem : n ∈ start.pdevList isActive := by
      rw [whole]
      exact (Cursor.remains_sublist.append (List.Sublist.refl _)).subset stays
    obtain ⟨before, behind, split⟩ := List.append_of_mem mem
    rw [stage.node n stays]
    by_cases unsettled : start.Unsettled call n
    · have good : ∀ m ∈ before ++ [n], start.inTime call isActive timerStops m = true := by
        intro m there
        exact inTime_iff.2 fun active =>
          reaches.timers active before n behind split unsettled m there
      have front := Cursor.takeWhile_of_all split good
      rw [← is] at front
      have bound : before.length + Cursor.rewalked (start.verdict call isActive) 0 before <
          (start.pdevList isActive).length := by
        have few := reaches.steps before n behind split unsettled
        rw [split, List.length_append, List.length_cons]
        omega
      have came : n ∈ Cursor.visited (start.verdict call isActive) rest
          (start.pdevList isActive).length 0 := by
        rw [front]
        exact Cursor.mem_visited bound
      have kept : n ∈ Cursor.remains (start.verdict call isActive) rest
          (start.pdevList isActive).length 0 := by
        refine (List.mem_append.1 stays).resolve_right fun behind => ?_
        rw [whole, List.nodup_append] at once
        exact once.2.2 n (Cursor.visited_subset came) n behind rfl
      have mark : start.verdict call isActive n = .mark := by
        cases verdict : start.verdict call isActive n with
        | pass =>
          rw [verdict_pass_iff, meant] at verdict
          cases verdict
        | mark => rfl
        | take =>
          rw [whole] at once
          exact absurd ⟨came, verdict⟩ ((Cursor.mem_remains_iff once.of_append_left).1 kept).2
      obtain ⟨-, -, marked⟩ := verdict_mark_iff.1 mark
      rw [if_pos (Cursor.mem_walk_snd_of_visited (by simp) came mark)]
      exact ⟨.inl marked, rfl⟩
    · have settled : ((start.node n).marks.markedForActivation = true ∨
          (start.node n).marks.markedForMovement = true) ∧
          (start.node n).marks.markedForCancel = true := by
        by_contra not
        exact unsettled ⟨meant, not⟩
      rw [Node.flag_eq_self settled.2, ite_self]
      exact settled

theorem Linked.settles_self_iff (linked : queue.Linked vdevs) :
    queue.Settles call isActive queue ↔
      ∀ n ∈ queue.pdevList isActive, ¬queue.Unsettled call n := by
  constructor
  · intro settles n mem unsettled
    exact unsettled.2 (settles.matching n mem unsettled.1)
  · intro none
    refine ⟨fun n mem meant => ?_, rfl, fun _ _ _ => rfl, List.Sublist.refl _,
      fun kind vdev => linked.ofVdev kind isActive vdev, rfl⟩
    by_contra not
    exact none n mem ⟨meant, not⟩

/-- A cancellation ends, and it leaves what it is to leave exactly if its loop comes to every
command that is unsettled and can take it off. -/
theorem cancelCmd_settles_iff (linked : queue.Linked vdevs)
    (asked : call.cmd.isSome ∨ call.pdev = true ∨ call.vdev.isSome)
    (lasting : queue.Lasting call isActive) :
    ∃ last after, queue.cancelCmd call isActive timerStops = some (last, after) ∧
      (queue.Settles call isActive after ↔ queue.Reaches call isActive timerStops) := by
  by_cases lost : (isActive && !queue.hasPsoc call) = true
  · obtain ⟨last, ran⟩ := @cancelLoop_still queue call isActive (queue.hasPsoc call) timerStops
      .notFound none (queue.pdevList isActive).length [] _ rfl
      (linked.nodup_pdevList isActive) (.inl lost)
    rw [Bool.and_eq_true, Bool.not_eq_true'] at lost
    refine ⟨last, queue, ran, linked.settles_self_iff.trans ⟨fun none => ?_, ?_⟩⟩
    · have settled : ∀ before n behind, queue.pdevList isActive = before ++ n :: behind →
          ¬queue.Unsettled call n := by
        intro before n behind split
        exact none n (by rw [split]; simp)
      exact ⟨fun _ _ => none,
        fun _ before n behind split unsettled =>
          absurd unsettled (settled before n behind split),
        fun before n behind split unsettled =>
          absurd unsettled (settled before n behind split)⟩
    · intro reaches
      exact reaches.psoc lost.1 lost.2
  · apply linked.cancelLoop_settles_iff lasting asked
    intro active
    simpa [active] using lost

end Queue

namespace Machine

def activatingMachine : Machine :=
  (Lib.play step (fun machine move => machine.Promised {0, 1, 2} move) (initial .nonScan)
    [.request {} (some (sampleCmd 0 1 false)), .request {} (some (sampleCmd 1 2 false)),
      .run 1 {}, .run 1 {}, .run 1 {}, .request {} (some (sampleCmd 2 3 false)), .run 2 {},
      .run 2 {}, .run 2 {}]).get (by decide +kernel)

theorem activatingMachine_reachable : activatingMachine.Reachable {0, 1, 2} .nonScan := by
  have start : (initial .nonScan).Reachable {0, 1, 2} .nonScan := .start rfl
  exact Lib.play_reachable start _

def cancelPdev : CancelCall where
  pdev := true
  cmdType := .nonscan

/-- The last of the commands stays on the list, neither marked nor flagged. -/
theorem activatingMachine_cancelCmd :
    ∃ last after, activatingMachine.queue.cancelCmd cancelPdev true (fun _ => true) =
        some (last, after) ∧
      after.active = [0, 2] ∧ activatingMachine.queue.isSkipped cancelPdev 2 = false ∧
      (after.node 2).marks.markedForActivation = false ∧
      (after.node 2).marks.markedForMovement = false ∧
      (after.node 2).marks.markedForCancel = false ∧
      ¬activatingMachine.queue.Settles cancelPdev true after := by
  have left : (activatingMachine.queue.cancelCmd cancelPdev true fun _ => true).map
      (fun result => (result.2.active, (result.2.node 2).marks)) =
        some ([0, 2], { isActive := true }) := by
    decide +kernel
  obtain ⟨⟨last, after⟩, ran, is⟩ := Option.map_eq_some_iff.1 left
  rw [Prod.mk.injEq] at is
  obtain ⟨active, marks⟩ := is
  dsimp only at active marks
  have meant : activatingMachine.queue.isSkipped cancelPdev 2 = false := by decide +kernel
  refine ⟨last, after, ran, active, meant, by rw [marks], by rw [marks], by rw [marks],
    fun settles => ?_⟩
  have flagged := (settles.matching 2 (by simp [active]) meant).2
  rw [marks] at flagged
  cases flagged

theorem activatingMachine_reaches :
    ∃ last after, activatingMachine.queue.cancelCmd cancelPdev true (fun _ => true) =
        some (last, after) ∧
      (activatingMachine.queue.Settles cancelPdev true after ↔
        activatingMachine.queue.Reaches cancelPdev true fun _ => true) :=
  Queue.cancelCmd_settles_iff
    (sound_of_reachable (by decide) activatingMachine_reachable).queue.linked (by decide)
    fun kind => absurd kind (by decide +kernel)

end Machine

end VendorModules.Ser
