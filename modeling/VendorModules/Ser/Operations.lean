import VendorModules.Ser.Linked

namespace VendorModules.Ser

namespace Queue

variable {queue : Queue} {vdevs : Finset VdevId} {n : NodeId} {cmd : Command} {key : Key}
  {isActive : Bool}

theorem disableFor_eq (queue : Queue) (cmd : Command) :
    ∃ disable, queue.disableFor cmd = { queue with queueDisable := disable } := by
  unfold disableFor
  split
  · exact ⟨_, rfl⟩
  · exact ⟨_, rfl⟩

theorem findCmd_some {list : List NodeId} (found : queue.findCmd list key = some n) :
    n ∈ list ∧ (queue.node n).key = key := by
  refine ⟨List.mem_of_find?_eq_some found, ?_⟩
  simpa using List.find?_some found

theorem findCmd_none {list : List NodeId} (absent : queue.findCmd list key = none) :
    ∀ m ∈ list, (queue.node m).key ≠ key := by
  intro m member
  simpa using List.find?_eq_none.1 absent m member

theorem key_vdev {vdev : VdevId} (of : (queue.node n).key.vdev = some vdev) :
    (queue.node n).vdev? = some vdev := by
  unfold Node.key at of
  unfold Node.vdev?
  cases content : (queue.node n).content with
  | none => simp [content] at of
  | some accepted => simpa [content, Command.key] using of

def Full (queue : Queue) (cmd : Command) (isActive : Bool) : Prop :=
  (queue.kind = .nonScan ∧ (queue.vdevList isActive cmd.vdev).length = maxOnVdev isActive) ∨
    (queue.pdevList isActive).length = queue.maxOnPdev isActive

def markActive (queue : Queue) (cmd : Command) : Queue :=
  match queue.kind with
  | .scan => queue
  | .nonScan =>
    { queue with
      vdevActiveCmd := Function.update queue.vdevActiveCmd cmd.vdev true
      blockingCmdActive := queue.blockingCmdActive || cmd.isBlocking }

theorem markActive_nonScan (kind : queue.kind = .nonScan) (cmd : Command) :
    queue.markActive cmd =
      { queue with
        vdevActiveCmd := Function.update queue.vdevActiveCmd cmd.vdev true
        blockingCmdActive := queue.blockingCmdActive || cmd.isBlocking } := by
  unfold markActive
  rw [kind]

theorem Lists.effect (kind : queue.kind = .nonScan) (lists : queue.Lists n cmd true after) :
    let last := (after.markActive cmd).setMarks n
      fun marks => { marks with markedForActivation := true }
    last.pending = queue.pending ∧ last.active.Perm (n :: queue.active) ∧
      (∀ m, (last.node m).content = (queue.node m).content) ∧
        last.vdevActiveCmd = Function.update queue.vdevActiveCmd cmd.vdev true ∧
          last.blockingCmdActive = (queue.blockingCmdActive || cmd.isBlocking) := by
  rw [after.markActive_nonScan (lists.kind.trans kind)]
  refine ⟨lists.pending, ?_, fun m => setMarks_content.trans ?_, ?_, ?_⟩
  · change after.active.Perm _
    rw [lists.active, if_pos rfl]
    exact place_perm _ _ _
  · exact congrArg (fun node : NodeId → Node => (node m).content) lists.node
  · exact congrArg (Function.update · _ _) lists.bits
  · exact congrArg (· || _) lists.blocking

def markRemoved (queue : Queue) (n : NodeId) (vdev : VdevId) : Queue :=
  match queue.kind with
  | .scan => queue
  | .nonScan =>
    { queue with
      blockingCmdActive := queue.blockingCmdActive && !(queue.node n).isBlocking
      vdevActiveCmd := Function.update queue.vdevActiveCmd vdev false }

theorem addCmdToVdevQueue_room
    (room : (queue.vdevList isActive cmd.vdev).length ≠ maxOnVdev isActive) :
    queue.addCmdToVdevQueue n cmd isActive =
      (if isActive then .active else .pending,
        (queue.disableFor cmd).setVdevList isActive cmd.vdev
          (place cmd n (queue.vdevList isActive cmd.vdev))) := by
  unfold addCmdToVdevQueue addCmdToQueue
  rw [if_neg room]
  simp only [setVdevList_disableFor]

theorem addCmdToPdevQueue_room
    (room : (queue.pdevList isActive).length ≠ queue.maxOnPdev isActive) :
    queue.addCmdToPdevQueue n cmd isActive =
      (if isActive then .active else .pending,
        queue.setPdevList isActive (place cmd n (queue.pdevList isActive))) := by
  unfold addCmdToPdevQueue addCmdToQueue
  rw [if_neg room]

theorem addCmdToPdevQueue_full
    (full : (queue.pdevList isActive).length = queue.maxOnPdev isActive) :
    queue.addCmdToPdevQueue n cmd isActive = (.deniedListFull, queue) := by
  unfold addCmdToPdevQueue addCmdToQueue
  rw [if_pos full]

theorem removeCmdFromVdevQueue_place (fresh : n ∉ queue.vdevList isActive cmd.vdev)
    (absent : ∀ m ∈ queue.vdevList isActive cmd.vdev, (queue.node m).key ≠ cmd.key)
    (here : (queue.node n).key = cmd.key)
    (unmarked : (queue.node n).marks.markedForActivation = false) :
    (queue.setVdevList isActive cmd.vdev
        (place cmd n (queue.vdevList isActive cmd.vdev))).removeCmdFromVdevQueue cmd.key
      isActive = (.success n, queue) := by
  have found : (queue.setVdevList isActive cmd.vdev
      (place cmd n (queue.vdevList isActive cmd.vdev))).findCmd
        (place cmd n (queue.vdevList isActive cmd.vdev)) cmd.key = some n := by
    unfold findCmd place
    simp only [setVdevList_node]
    split
    · simp [here]
    · rw [List.find?_append, List.find?_eq_none.2 (by simpa using absent)]
      simp [here]
  have list : (queue.setVdevList isActive cmd.vdev
      (place cmd n (queue.vdevList isActive cmd.vdev))).vdevList isActive cmd.vdev =
        place cmd n (queue.vdevList isActive cmd.vdev) := by
    rw [setVdevList_vdevList, if_pos ⟨rfl, rfl⟩]
  have onVdev : cmd.key.vdev = some cmd.vdev := rfl
  unfold removeCmdFromVdevQueue removeCmdFromQueue
  simp only [onVdev, list, found, setVdevList_node, unmarked, Bool.false_eq_true, if_false,
    erase_place fresh, setVdevList_again, setVdevList_self]

theorem addCmd_full (full : queue.Full cmd isActive)
    (fresh : queue.kind = .nonScan → n ∉ queue.vdevList isActive cmd.vdev)
    (absent : queue.kind = .nonScan →
      ∀ m ∈ queue.vdevList isActive cmd.vdev, (queue.node m).key ≠ cmd.key)
    (here : (queue.node n).key = cmd.key)
    (unmarked : (queue.node n).marks.markedForActivation = false) :
    queue.addCmd n cmd isActive =
      (.deniedListFull,
        if queue.kind = .nonScan then queue.disableFor cmd else queue) := by
  unfold addCmd
  cases kind : queue.kind with
  | scan =>
    have full : (queue.pdevList isActive).length = queue.maxOnPdev isActive := by
      rcases full with ⟨other, -⟩ | full
      · simp [kind] at other
      · exact full
    simp [addScanCmd, addCmdToPdevQueue_full full]
  | nonScan =>
    unfold addNonScanCmd
    by_cases onVdev : (queue.vdevList isActive cmd.vdev).length = maxOnVdev isActive
    · simp [addCmdToVdevQueue, addCmdToQueue, onVdev]
    · have full : (queue.pdevList isActive).length = queue.maxOnPdev isActive := by
        rcases full with ⟨-, other⟩ | full
        · exact absurd other onVdev
        · exact full
      have list : ((queue.disableFor cmd).setVdevList isActive cmd.vdev
          (place cmd n (queue.vdevList isActive cmd.vdev))).addCmdToPdevQueue n cmd
            isActive = (.deniedListFull, (queue.disableFor cmd).setVdevList isActive
              cmd.vdev (place cmd n (queue.vdevList isActive cmd.vdev))) := by
        refine addCmdToPdevQueue_full ?_
        rw [setVdevList_pdevList, disableFor_pdevList, full]
        simp only [maxOnPdev, setVdevList_kind, disableFor_kind]
      have back := @removeCmdFromVdevQueue_place (queue.disableFor cmd) n cmd isActive
        (by simpa using fresh kind) (by simpa using absent kind) (by simpa using here)
        (by simpa using unmarked)
      rw [disableFor_vdevList] at back
      rw [addCmdToVdevQueue_room onVdev]
      cases isActive <;> simp only [list, back, if_true, Bool.false_eq_true, if_false]

theorem addCmd_room (room : ¬queue.Full cmd isActive) :
    ∃ mid, queue.Lists n cmd isActive mid ∧
      queue.addCmd n cmd isActive =
        (if isActive then .active else .pending,
          if isActive then mid.markActive cmd else mid) := by
  simp only [Full, not_or, not_and] at room
  obtain ⟨onVdev, onPdev⟩ := room
  unfold addCmd
  cases kind : queue.kind with
  | scan =>
    refine ⟨queue.setPdevList isActive (place cmd n (queue.pdevList isActive)), ?_, ?_⟩
    · refine ⟨by simp, by simp, by simp, fun other => ?_, fun other => ?_, by simp,
        by simp, by simp⟩
      · rw [setPdevList_pdevList]
        split <;> simp_all
      · simp [kind] at other
    · cases isActive <;>
        simp [addScanCmd, addCmdToPdevQueue_room onPdev, markActive, kind]
  | nonScan =>
    have pdev : ((queue.disableFor cmd).setVdevList isActive cmd.vdev
        (place cmd n (queue.vdevList isActive cmd.vdev))).addCmdToPdevQueue n cmd
          isActive = (if isActive then .active else .pending,
            ((queue.disableFor cmd).setVdevList isActive cmd.vdev
              (place cmd n (queue.vdevList isActive cmd.vdev))).setPdevList isActive
                (place cmd n (queue.pdevList isActive))) := by
      rw [addCmdToPdevQueue_room, setVdevList_pdevList, disableFor_pdevList]
      rw [setVdevList_pdevList, disableFor_pdevList]
      simpa only [maxOnPdev, setVdevList_kind, disableFor_kind] using onPdev
    refine ⟨((queue.disableFor cmd).setVdevList isActive cmd.vdev
      (place cmd n (queue.vdevList isActive cmd.vdev))).setPdevList isActive
        (place cmd n (queue.pdevList isActive)), ?_, ?_⟩
    · obtain ⟨disable, disabled⟩ := disableFor_eq queue cmd
      refine ⟨by simp, by simp, by simp, fun other => ?_, fun _ other vdev => ?_, ?_, ?_, ?_⟩
      · rw [setPdevList_pdevList, setVdevList_pdevList, disableFor_pdevList]
        split <;> simp_all
      · rw [setPdevList_vdevList, setVdevList_vdevList, disableFor_vdevList]
        split <;> simp_all
      · simp [disabled]
      · simp [disabled]
      · simp [disabled]
    · unfold addNonScanCmd
      rw [addCmdToVdevQueue_room (onVdev kind)]
      cases isActive <;> simp only [pdev, markActive, kind, if_true, Bool.false_eq_true,
        if_false, setPdevList_kind, setVdevList_kind, disableFor_kind]

theorem removeCmdFromPdevQueue_cases {result : Removal} {after : Queue}
    (ran : queue.removeCmdFromPdevQueue key isActive = (result, after)) :
    (queue.findCmd (queue.pdevList isActive) key = none ∧ result = .failure ∧
        after = queue) ∨
      ∃ n, queue.findCmd (queue.pdevList isActive) key = some n ∧
        (((queue.node n).marks.markedForActivation = true ∧ result = .pending ∧
            after = queue.setMarks n
              fun marks => { marks with markedForRemoval := true }) ∨
          ((queue.node n).marks.markedForActivation = false ∧ result = .success n ∧
            after = queue.setPdevList isActive ((queue.pdevList isActive).erase n))) := by
  unfold removeCmdFromPdevQueue removeCmdFromQueue at ran
  cases found : queue.findCmd (queue.pdevList isActive) key with
  | none =>
    simp only [found, Prod.mk.injEq] at ran
    exact .inl ⟨rfl, ran.1.symm, ran.2.symm⟩
  | some n =>
    refine .inr ⟨n, rfl, ?_⟩
    simp only [found] at ran
    cases marked : (queue.node n).marks.markedForActivation with
    | true =>
      simp only [marked, if_true, Prod.mk.injEq] at ran
      exact .inl ⟨rfl, ran.1.symm, ran.2.symm⟩
    | false =>
      simp only [marked, Bool.false_eq_true, if_false, Prod.mk.injEq] at ran
      exact .inr ⟨rfl, ran.1.symm, ran.2.symm⟩

theorem Linked.findCmd_vdevList (linked : queue.Linked vdevs) (kind : queue.kind = .nonScan)
    {vdev : VdevId} (on : key.vdev = some vdev) :
    queue.findCmd (queue.vdevList isActive vdev) key =
      queue.findCmd (queue.pdevList isActive) key := by
  unfold findCmd
  rw [linked.ofVdev kind, List.find?_filter]
  congr 1
  funext m
  by_cases same : (queue.node m).key = key
  · have of : (queue.node m).vdev? = some vdev := key_vdev (by rw [same, on])
    simp [same, isOn, of]
  · simp [same]

theorem Linked.findCmd_of_vdev_none (linked : queue.Linked vdevs) (on : key.vdev = none) :
    queue.findCmd (queue.pdevList isActive) key = none := by
  refine List.find?_eq_none.2 fun m member => ?_
  have listed : m ∈ queue.pending ++ queue.active := by
    cases isActive with
    | true => exact List.mem_append_right _ member
    | false => exact List.mem_append_left _ member
  obtain ⟨accepted, content, -⟩ := linked.filled m listed
  simp only [decide_eq_true_eq]
  rintro rfl
  simp [Node.key, content, Command.key] at on

theorem unlists_scan (kind : queue.kind = .scan) :
    queue.Unlists n isActive
      (queue.setPdevList isActive ((queue.pdevList isActive).erase n)) := by
  refine ⟨by simp, by simp, by simp, fun other => ?_, fun other => ?_, by simp, by simp,
    by simp, by simp⟩
  · rw [setPdevList_pdevList]
    split <;> simp_all
  · simp [kind] at other

theorem unlists_nonScan {vdev : VdevId} (of : (queue.node n).vdev? = some vdev) :
    queue.Unlists n isActive
      ((queue.setVdevList isActive vdev ((queue.vdevList isActive vdev).erase n)).setPdevList
        isActive ((queue.pdevList isActive).erase n)) := by
  refine ⟨by simp, by simp, by simp, fun other => ?_, fun _ other id => ?_, by simp,
    by simp, by simp, by simp⟩
  · rw [setPdevList_pdevList, setVdevList_pdevList]
    split <;> simp_all
  · rw [setPdevList_vdevList, setVdevList_vdevList, of]
    by_cases same : id = vdev
    · subst same
      split <;> simp_all
    · simp [same, Ne.symm same]

theorem Linked.removeCmd_cases (linked : queue.Linked vdevs) {result : Removal}
    {after : Queue} (ran : queue.removeCmd key isActive = (result, after)) :
    (queue.findCmd (queue.pdevList isActive) key = none ∧ result = .failure ∧
        after = queue) ∨
      ∃ n, queue.findCmd (queue.pdevList isActive) key = some n ∧
        (((queue.node n).marks.markedForActivation = true ∧ result = .pending ∧
            after = queue.setMarks n
              fun marks => { marks with markedForRemoval := true }) ∨
          ((queue.node n).marks.markedForActivation = false ∧ result = .success n ∧
            ∃ mid, queue.Unlists n isActive mid ∧
              ∀ vdev, (queue.node n).vdev? = some vdev →
                after = if isActive then mid.markRemoved n vdev else mid)) := by
  unfold removeCmd at ran
  cases kind : queue.kind with
  | scan =>
    simp only [kind, removeScanCmd] at ran
    rcases removeCmdFromPdevQueue_cases ran with failed |
      ⟨n, found, marked | ⟨unmarked, removed, rfl⟩⟩
    · exact .inl failed
    · exact .inr ⟨n, found, .inl marked⟩
    · refine .inr ⟨n, found, .inr ⟨unmarked, removed, _, unlists_scan kind,
        fun vdev _ => ?_⟩⟩
      cases isActive <;> simp [markRemoved, kind]
  | nonScan =>
    simp only [kind, removeNonScanCmd, removeCmdFromVdevQueue] at ran
    cases on : key.vdev with
    | none =>
      simp only [on, Prod.mk.injEq] at ran
      exact .inl ⟨linked.findCmd_of_vdev_none on, ran.1.symm, ran.2.symm⟩
    | some vdev =>
      simp only [on, removeCmdFromQueue, linked.findCmd_vdevList kind on] at ran
      cases found : queue.findCmd (queue.pdevList isActive) key with
      | none =>
        simp only [found, Prod.mk.injEq] at ran
        exact .inl ⟨rfl, ran.1.symm, ran.2.symm⟩
      | some n =>
        have of : (queue.node n).vdev? = some vdev :=
          key_vdev (by rw [(findCmd_some found).2, on])
        refine .inr ⟨n, rfl, ?_⟩
        simp only [found] at ran
        cases marked : (queue.node n).marks.markedForActivation with
        | true =>
          simp only [marked, if_true, Prod.mk.injEq] at ran
          exact .inl ⟨rfl, ran.1.symm, ran.2.symm⟩
        | false =>
          simp only [marked, Bool.false_eq_true, if_false] at ran
          refine .inr ⟨rfl, ?_⟩
          -- the second removal finds the same command on the pdev's list
          have second : (queue.setVdevList isActive vdev
              ((queue.vdevList isActive vdev).erase n)).removeCmdFromPdevQueue key
                isActive = (.success n, (queue.setVdevList isActive vdev
                  ((queue.vdevList isActive vdev).erase n)).setPdevList isActive
                    ((queue.pdevList isActive).erase n)) := by
            unfold removeCmdFromPdevQueue removeCmdFromQueue
            have again : (queue.setVdevList isActive vdev
                ((queue.vdevList isActive vdev).erase n)).findCmd
                  (queue.pdevList isActive) key = some n := by
              rw [← found]
              simp only [findCmd, setVdevList_node]
            simp only [setVdevList_pdevList, again, setVdevList_node, marked,
              Bool.false_eq_true, if_false]
          rw [second] at ran
          refine ⟨?_, _, unlists_nonScan of, fun id sameVdev => ?_⟩
          · cases isActive <;> exact (congrArg Prod.fst ran).symm
          · obtain rfl := Option.some.inj (of.symm.trans sameVdev)
            cases isActive with
            | false => exact (congrArg Prod.snd ran).symm
            | true =>
              refine (congrArg Prod.snd ran).symm.trans ?_
              simp [markRemoved, kind]

end Queue

end VendorModules.Ser
