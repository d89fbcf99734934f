import VendorModules.Ser.Runs

namespace VendorModules.Ser

namespace Queue

variable {queue after : Queue} {vdevs : Finset VdevId} {n : NodeId} {isActive : Bool}

def nodes (queue : Queue) : List NodeId := queue.pool ++ (queue.pending ++ queue.active)

theorem nodes_freeNode : (queue.freeNode n).nodes.Perm (n :: queue.nodes) := by
  change (queue.pool ++ [n] ++ (queue.pending ++ queue.active)).Perm _
  rw [List.append_assoc]
  exact List.perm_middle

theorem Remarked.nodes (remarked : queue.Remarked after) : after.nodes = queue.nodes := by
  unfold Queue.nodes
  rw [remarked.pool, remarked.pending, remarked.active]

@[simp] theorem nodes_markActive (cmd : Command) :
    (queue.markActive cmd).nodes = queue.nodes := by
  unfold markActive
  split <;> rfl

@[simp] theorem nodes_markRemoved (vdev : VdevId) :
    (queue.markRemoved n vdev).nodes = queue.nodes := by
  unfold markRemoved
  split <;> rfl

@[simp] theorem nodes_settleCancel (cmd : Command) :
    (queue.settleCancel cmd isActive).nodes = queue.nodes := by
  unfold settleCancel
  split
  · rfl
  · split
    · rfl
    · split <;> rfl

theorem Promotes.nodes {accepted : Accepted} (promotes : queue.Promotes n accepted after) :
    after.nodes.Perm queue.nodes := by
  obtain ⟨pending, -, mid, last, unlists, lists, rfl⟩ := promotes
  have moved : (last.markActive accepted.cmd).nodes.Perm queue.nodes := by
    rw [nodes_markActive]
    exact lists.perm.trans (unlists.perm pending).symm
  dsimp only
  split <;> exact moved

theorem Enqueued.nodes {lookups : Lookups} {accepted : Accepted} {status : Status}
    {taken : Option NodeId}
    (enqueued : queue.Enqueued lookups accepted status taken after) :
    after.nodes.Perm queue.nodes := by
  have counted : (queue.counted accepted.cmd).nodes = queue.nodes := by
    obtain ⟨waiting, same⟩ := counted_eq queue accepted.cmd
    rw [same]
    rfl
  have took : ∀ {n pool}, queue.pool = n :: pool →
      queue.nodes = n :: ((queue.counted accepted.cmd).takeNode n pool accepted).nodes := by
    intro n pool first
    obtain ⟨waiting, same⟩ := counted_takeNode queue accepted.cmd n pool accepted
    rw [same]
    unfold Queue.nodes
    rw [first]
    rfl
  cases enqueued with
  | refused => exact .refl _
  | turnedAway => exact .of_eq counted
  | @full n pool _ _ first =>
    rw [took first]
    split
    · refine nodes_freeNode.trans (.of_eq ?_)
      obtain ⟨disable, same⟩ := disableFor_eq
        ((queue.counted accepted.cmd).takeNode n pool accepted) accepted.cmd
      rw [same]
      rfl
    · exact nodes_freeNode
  | pending _ _ first _ _ lists =>
    rw [took first]
    exact lists.perm
  | @active n pool last _ _ first _ _ lists =>
    rw [took first]
    refine .trans (.of_eq ?_) lists.perm
    exact nodes_markActive accepted.cmd

/-- A bit is set for an active command, or for one that a cancellation has just taken off
the active list. -/
def Covered (queue : Queue) (windows : List VdevId) : Prop :=
  ∀ vdev, queue.vdevActiveCmd vdev = true →
    (∃ n ∈ queue.active, (queue.node n).vdev? = some vdev) ∨ vdev ∈ windows

namespace Covered

variable {windows windows' : List VdevId}

theorem congr (covered : queue.Covered windows) (active : after.active = queue.active)
    (vdev : ∀ m ∈ queue.active, (after.node m).vdev? = (queue.node m).vdev?)
    (bits : after.vdevActiveCmd = queue.vdevActiveCmd)
    (wider : ∀ vdev ∈ windows, vdev ∈ windows') : after.Covered windows' := by
  intro id bit
  rw [bits] at bit
  rcases covered id bit with ⟨m, there, of⟩ | window
  · exact .inl ⟨m, active ▸ there, (vdev m there).trans of⟩
  · exact .inr (wider id window)

theorem remarked (covered : queue.Covered windows) (remarked : queue.Remarked after) :
    after.Covered windows :=
  covered.congr remarked.active (fun m _ => remarked.vdev? m) remarked.bits fun _ => id

theorem freeNode (covered : queue.Covered windows) (loose : queue.Loose n) :
    (queue.freeNode n).Covered windows := by
  refine covered.congr rfl (fun m there => ?_) rfl fun _ => id
  rw [loose.freeNode_node (List.mem_append_right _ (List.mem_append_right _ there))]

theorem unlists (covered : queue.Covered windows) (unlists : queue.Unlists n true after)
    {vdev : VdevId} (of : (queue.node n).vdev? = some vdev) :
    after.Covered (vdev :: windows) := by
  intro id bit
  rw [unlists.bits] at bit
  by_cases here : id = vdev
  · exact .inr (here ▸ List.mem_cons_self)
  rcases covered id bit with ⟨m, there, ofM⟩ | window
  · refine .inl ⟨m, ?_, ?_⟩
    · rw [unlists.active, if_pos rfl]
      refine (List.mem_erase_of_ne ?_).2 there
      rintro rfl
      exact here (Option.some.inj (ofM.symm.trans of))
    · rw [unlists.node]
      exact ofM
  · exact .inr (List.mem_cons_of_mem _ window)

theorem clear {vdev : VdevId} (covered : queue.Covered (vdev :: windows)) {blocking : Bool} :
    ({ queue with
        blockingCmdActive := blocking
        vdevActiveCmd := Function.update queue.vdevActiveCmd vdev false } : Queue).Covered
      windows := by
  intro id bit
  by_cases here : id = vdev
  · subst here
    simp at bit
  · simp only [Function.update_of_ne here] at bit
    rcases covered id bit with active | window
    · exact .inl active
    · exact .inr ((List.mem_cons.1 window).resolve_left here)

theorem listed (covered : queue.Covered windows) (kind : queue.kind = .nonScan)
    {cmd : Command} (lists : queue.Lists n cmd true after)
    (of : (queue.node n).vdev? = some cmd.vdev) :
    ((after.markActive cmd).setMarks n
      fun marks => { marks with markedForActivation := true }).Covered windows := by
  obtain ⟨-, active, contents, bits, -⟩ := lists.effect kind
  generalize (after.markActive cmd).setMarks n
    (fun marks => { marks with markedForActivation := true }) = last at *
  have nodes : ∀ m, (last.node m).vdev? = (queue.node m).vdev? := fun m =>
    Node.vdev?_congr (contents m)
  have members : ∀ m, m = n ∨ m ∈ queue.active → m ∈ last.active := fun m there =>
    active.mem_iff.2 (List.mem_cons.2 there)
  intro id bit
  by_cases here : id = cmd.vdev
  · subst here
    exact .inl ⟨n, members n (.inl rfl), (nodes n).trans of⟩
  · have bit : queue.vdevActiveCmd id = true := by
      rwa [bits, Function.update_of_ne here] at bit
    rcases covered id bit with ⟨m, there, ofM⟩ | window
    · exact .inl ⟨m, members m (.inr there), (nodes m).trans ofM⟩
    · exact .inr window

theorem enqueued (covered : queue.Covered windows) (linked : queue.Linked vdevs)
    (kind : queue.kind = .nonScan) {lookups : Lookups} {accepted : Accepted}
    {status : Status} {taken : Option NodeId}
    (enqueued : queue.Enqueued lookups accepted status taken after) :
    after.Covered windows := by
  have counted : (queue.counted accepted.cmd).Covered windows := by
    obtain ⟨waiting, same⟩ := counted_eq queue accepted.cmd
    rw [same]
    exact covered.congr rfl (fun _ _ => rfl) rfl fun _ => id
  have taken : ∀ {n pool}, queue.pool = n :: pool →
      ((queue.counted accepted.cmd).takeNode n pool accepted).Covered windows := by
    intro n pool first
    obtain ⟨-, -, nodes⟩ := linked.taken first accepted
    obtain ⟨waiting, same⟩ := counted_takeNode queue accepted.cmd n pool accepted
    rw [same] at nodes ⊢
    refine covered.congr rfl (fun m there => ?_) rfl fun _ => id
    rw [nodes m (List.mem_append_right _ there)]
  cases enqueued with
  | refused => exact covered
  | turnedAway => exact counted
  | @full n pool _ _ first =>
    obtain ⟨loose, -, -⟩ := linked.taken first accepted
    rw [if_pos kind]
    obtain ⟨disable, same⟩ := disableFor_eq
      ((queue.counted accepted.cmd).takeNode n pool accepted) accepted.cmd
    rw [same]
    refine Covered.freeNode ?_ loose
    exact (taken first).congr rfl (fun _ _ => rfl) rfl fun _ => id
  | pending _ _ first _ _ lists =>
    exact (taken first).congr lists.active (fun m _ => by rw [lists.node]) lists.bits
      fun _ => id
  | @active n pool _ _ _ first _ _ lists =>
    obtain ⟨-, node, -⟩ := linked.taken first accepted
    refine (taken first).listed ?_ lists (by rw [node]; rfl)
    obtain ⟨waiting, same⟩ := counted_takeNode queue accepted.cmd n pool accepted
    rw [same]
    exact kind

end Covered

def size : Kind → Nat
  | .scan => maxActiveScanCmds + maxPendingScanCmds
  | .nonScan => maxActiveCmds + maxPendingCmds

theorem initial_nodes (kind : Kind) : (initial kind).nodes = List.range (size kind) := by
  cases kind <;> exact List.append_nil _

/-- Every node is in one place; of a non-scan queue a vdev's lists are the pdev's less the
other vdevs' commands, and the bits are those of the active commands. -/
structure Consistent (queue : Queue) : Prop where
  nodes : queue.nodes.Perm (List.range (size queue.kind))
  ofVdev : queue.kind = .nonScan → ∀ isActive vdev,
    queue.vdevList isActive vdev = (queue.pdevList isActive).filter (queue.isOn vdev)
  bits : queue.kind = .nonScan → ∀ vdev,
    queue.vdevActiveCmd vdev = true ↔ ∃ n ∈ queue.active, (queue.node n).vdev? = some vdev

/-- No node is lost, and a bit is set for an active command or for a cancellation that has
taken it off the lists. -/
structure Placed (queue : Queue) (frames : List Frame) : Prop where
  nodes : queue.nodes.Perm (List.range (size queue.kind))
  covered : queue.kind = .nonScan → queue.Covered (frames.filterMap Frame.window?)

theorem Placed.consistent_iff {frames : List Frame} (placed : queue.Placed frames)
    {activating : List NodeId}
    (sound : queue.Sound vdevs activating (frames.filterMap Frame.window?)) :
    queue.Consistent ↔ (queue.kind = .nonScan → frames.filterMap Frame.window? = []) := by
  refine ⟨fun consistent kind => ?_, fun none => ⟨placed.nodes, sound.linked.ofVdev, ?_⟩⟩
  · refine List.eq_nil_iff_forall_not_mem.2 fun vdev member => ?_
    obtain ⟨bit, idle⟩ := sound.idle kind vdev member
    obtain ⟨n, active, of⟩ := (consistent.bits kind vdev).1 bit
    exact idle n active of
  · intro kind vdev
    refine ⟨fun bit => ?_, fun ⟨n, active, of⟩ => sound.linked.bits kind n active vdev of⟩
    rcases placed.covered kind vdev bit with active | window
    · exact active
    · rw [none kind] at window
      cases window

/-- The step cancels no active command: those the cancellation means are still being
activated. -/
def Spares (queue : Queue) : Frame → Prop
  | .cancel call true => queue.kind = .nonScan → ∀ n ∈ queue.active,
      queue.isSkipped call n = true ∨ (queue.node n).marks.markedForActivation = true
  | _ => True

instance (queue : Queue) (frame : Frame) : Decidable (queue.Spares frame) := by
  unfold Spares
  split <;> infer_instance

end Queue

section Steps

variable {queue after : Queue} {vdevs : Finset VdevId} {choice : Choice} {frame : Frame}
  {new others : List Frame} {callbacks : List (Nat × CbReason)} {activating : List NodeId}
  {windows : List VdevId}

theorem Queue.Walked.nodes {call : CancelCall} {isActive : Bool}
    (walked : queue.Walked call isActive new after) : after.nodes.Perm queue.nodes := by
  cases walked with
  | ended remarked => exact .of_eq remarked.nodes
  | removed remarked member _ _ _ unlists =>
    have listed := unlists.perm (remarked.pdevList _ ▸ member)
    refine Queue.nodes_freeNode.trans (listed.symm.trans (.of_eq ?_))
    exact remarked.nodes

theorem Ran.nodes (ran : Ran queue choice frame new after callbacks) :
    after.nodes.Perm queue.nodes := by
  cases ran with
  | activate | notStarted | activated | settle | release | cancelNotify | stopped | timeout
  | timeoutNotify => exact .refl _
  | notFound remarked => exact .of_eq remarked.nodes
  | stay _ remarked => exact .of_eq remarked.nodes
  | dequeue active _ _ unlists =>
    refine Queue.nodes_freeNode.trans ?_
    rw [Queue.nodes_markRemoved]
    exact (unlists.perm active).symm
  | move _ remarked promotes => exact promotes.nodes.trans (.of_eq remarked.nodes)
  | cancel walked => exact walked.nodes
  | cancelResume walked =>
    exact walked.nodes.trans (.of_eq (Queue.nodes_settleCancel _))

theorem Queue.Covered.walked (covered : queue.Covered windows) (linked : queue.Linked vdevs)
    {call : CancelCall} {isActive : Bool} (walked : queue.Walked call isActive new after) :
    after.Covered (new.filterMap Frame.window? ++ windows) := by
  cases walked with
  | ended remarked last =>
    have kept := covered.remarked remarked
    rcases last with ⟨-, rfl⟩ | ⟨-, rfl⟩ <;> exact kept
  | @removed n accepted marked mid _ _ remarked member _ content _ unlists =>
    have kept := covered.remarked remarked
    have loose := (linked.remarked remarked).loose unlists (remarked.pdevList _ ▸ member)
    refine Queue.Covered.freeNode ?_ loose
    cases isActive with
    | true =>
      refine kept.unlists unlists ?_
      rw [remarked.vdev?]
      simp [Node.vdev?, content]
    | false =>
      exact kept.congr unlists.active (fun m _ => by rw [unlists.node]) unlists.bits
        fun _ => id

theorem Ran.covered (ran : Ran queue choice frame new after callbacks)
    (kind : queue.kind = .nonScan)
    (sound : queue.Sound vdevs (frame.activating?.toList ++ activating)
      (frame.window?.toList ++ windows))
    (covered : queue.Covered (frame.window?.toList ++ windows)) :
    after.Covered (new.filterMap Frame.window? ++ windows) := by
  cases ran with
  | activate =>
    exact covered.congr rfl (fun m _ => Node.vdev?_congr (Queue.setNode_content rfl)) rfl
      fun _ => id
  | activated =>
    exact covered.congr rfl (fun m _ => Node.vdev?_congr Queue.setMarks_content) rfl fun _ => id
  | notStarted | release | timeoutNotify | cancelNotify => exact covered
  | settle goesOn => rcases goesOn with rfl | rfl | ⟨call, rfl⟩ <;> exact covered
  | timeout goesOn => rcases goesOn with rfl | ⟨-, rfl⟩ <;> exact covered
  | notFound remarked => exact covered.remarked remarked
  | stay moves remarked =>
    have kept := covered.remarked remarked
    cases frame <;> first | exact kept | exact moves.elim
  | stopped moves =>
    cases frame <;> first | exact covered | exact moves.elim
  | cancel walked => exact covered.walked sound.linked walked
  | @dequeue _ n accepted mid active content unmarked unlists =>
    have loose := sound.linked.loose_markRemoved unlists active accepted.cmd.vdev
    refine Queue.Covered.freeNode ?_ loose
    have left := covered.unlists unlists
      (show (queue.node n).vdev? = some accepted.cmd.vdev by simp [Node.vdev?, content])
    unfold Queue.markRemoved
    split
    next scan => simp [unlists.kind, kind] at scan
    next => exact left.clear
  | @move _ _ n accepted marked _ moves remarked promotes _ clear _ _ goesOn =>
    have kept : marked.Covered windows := by
      have kept := covered.remarked remarked
      cases frame <;> first | exact kept | exact moves.elim
    obtain ⟨pending, content, mid, last, unlists, lists, rfl⟩ := promotes
    have left : mid.Covered windows :=
      kept.congr unlists.active (fun m _ => by rw [unlists.node]) unlists.bits fun _ => id
    have listed := left.listed (unlists.kind.trans (remarked.kind.trans kind)) lists
      (by rw [unlists.node]; simp [Node.vdev?, content])
    have none : new.filterMap Frame.window? = [] := by
      rcases goesOn with ⟨-, rfl⟩ | ⟨-, lookup, -, rfl⟩ <;> rfl
    rw [none]
    dsimp only
    split
    · exact listed.congr rfl (fun _ _ => rfl) rfl fun _ => id
    · exact listed
  | @cancelResume cmd cancelling _ _ walked =>
    have settled : (queue.settleCancel cmd cancelling.isActive).Sound vdevs activating
        windows := Queue.Sound.resumed sound
    refine Queue.Covered.walked ?_ settled.linked walked
    unfold Queue.settleCancel
    simp only [Frame.window?] at covered
    split
    next scan => simp [kind] at scan
    split
    next active =>
      rw [if_pos active] at covered
      exact Queue.Covered.clear covered
    next active =>
      rw [if_neg active] at covered
      split
      · exact covered.congr rfl (fun _ _ => rfl) rfl fun _ => id
      · exact covered

theorem Ran.spares (ran : Ran queue choice frame new after callbacks)
    (kind : queue.kind = .nonScan) (spares : queue.Spares frame)
    (none : frame.window? = none) : new.filterMap Frame.window? = [] := by
  have walked : ∀ {before : Queue} {call isActive},
      before.Walked call isActive new after →
        (isActive = true → ∀ n ∈ before.active, before.isSkipped call n = true ∨
          (before.node n).marks.markedForActivation = true) →
            new.filterMap Frame.window? = [] := by
    intro before call isActive walked spared
    cases walked with
    | ended _ last => rcases last with ⟨-, rfl⟩ | ⟨-, rfl⟩ <;> rfl
    | removed _ member chosen _ unmarked =>
      cases isActive with
      | false => rfl
      | true =>
        rcases spared rfl _ member with skipped | marked
        · rw [skipped] at chosen
          cases chosen
        · rw [unmarked rfl] at marked
          cases marked
  cases ran with
  | activate | notStarted | activated | notFound | dequeue | stay | release | stopped
  | timeoutNotify => rfl
  | settle goesOn => rcases goesOn with rfl | rfl | ⟨call, rfl⟩ <;> rfl
  | timeout goesOn => rcases goesOn with rfl | ⟨-, rfl⟩ <;> rfl
  | move _ _ _ _ _ _ _ goesOn => rcases goesOn with ⟨-, rfl⟩ | ⟨-, lookup, -, rfl⟩ <;> rfl
  | @cancel _ isActive _ _ walk =>
    refine walked walk fun active => ?_
    subst active
    exact spares kind
  | @cancelNotify _ cancelling =>
    cases active : cancelling.isActive with
    | false => simp [Frame.window?, active]
    | true => simp [Frame.window?, active] at none
  | @cancelResume _ cancelling _ _ walk =>
    refine walked walk fun active => ?_
    simp [Frame.window?, active] at none

theorem placed_kept (vdevs : Finset VdevId) (kind : Kind)
    (requests : Queue → Lookups → Command → Prop) (steps : Queue → Frame → Prop) :
    Kept vdevs kind requests steps Queue.Placed where
  initial := ⟨.of_eq (Queue.initial_nodes kind), fun _ vdev bit => by simp [Queue.initial] at bit⟩
  perm := fun placed perm => ⟨placed.nodes, fun kind => (placed.covered kind).congr rfl
    (fun _ _ => rfl) rfl fun vdev => ((perm.filterMap _).mem_iff).1⟩
  spawn := by
    intro queue frames thread placed _
    refine ⟨placed.nodes, fun kind => ?_⟩
    refine (placed.covered kind).congr rfl (fun _ _ => rfl) rfl fun vdev window => ?_
    rw [List.filterMap_append]
    exact List.mem_append_left _ window
  disable := fun placed => ⟨placed.nodes, fun kind =>
    (placed.covered kind).congr rfl (fun _ _ => rfl) rfl fun _ => id⟩
  enqueued := by
    intro queue frames lookups accepted status taken after _ sound placed _ enqueued
    refine ⟨?_, fun kind => ?_⟩
    · rw [enqueued.kind]
      exact enqueued.nodes.trans placed.nodes
    · rw [enqueued.kind] at kind
      have windows : ((taken.map Frame.activate).toList ++ frames).filterMap Frame.window? =
          frames.filterMap Frame.window? := by
        cases taken <;> rfl
      rw [windows]
      exact (placed.covered kind).enqueued sound.linked kind enqueued
  ran := by
    intro queue choice frame new others after callbacks _ sound placed _ ran
    obtain ⟨same, -⟩ := ran.fits
    refine ⟨?_, fun kind => ?_⟩
    · rw [same]
      exact ran.nodes.trans placed.nodes
    · rw [same] at kind
      have covered := placed.covered kind
      rw [filterMap_cons_toList] at covered
      rw [List.filterMap_append]
      exact ran.covered kind sound covered

theorem spared_kept (vdevs : Finset VdevId) (kind : Kind) :
    Kept vdevs kind (fun _ _ _ => True) Queue.Spares fun queue frames =>
      queue.kind = .nonScan → frames.filterMap Frame.window? = [] where
  initial := fun _ => rfl
  perm := fun none perm kind => by
    have same := perm.symm.filterMap Frame.window?
    rw [none kind] at same
    exact same.eq_nil
  spawn := by
    intro queue frames thread none starts kind
    rw [List.filterMap_append, none kind, List.nil_append, List.filterMap_eq_nil_iff]
    intro frame member
    have start := starts frame member
    cases frame <;> first | rfl | cases start
  disable := fun none => none
  enqueued := by
    intro queue frames lookups accepted status taken after _ _ none _ enqueued kind
    rw [enqueued.kind] at kind
    cases taken <;> exact none kind
  ran := by
    intro queue choice frame new others after callbacks _ _ none spares ran kind
    rw [ran.fits.1] at kind
    have before := none kind
    rw [filterMap_cons_toList, List.append_eq_nil_iff, Option.toList_eq_nil_iff] at before
    rw [List.filterMap_append, ran.spares kind spares before.1, before.2]
    rfl

end Steps

namespace Machine

variable {machine : Machine} {vdevs : Finset VdevId} {kind : Kind}

def SparingMove (vdevs : Finset VdevId) : Machine → Move → Prop :=
  Allowed vdevs (fun _ _ _ => True) Queue.Spares

instance (vdevs : Finset VdevId) (machine : Machine) (move : Move) :
    Decidable (SparingMove vdevs machine move) :=
  inferInstanceAs (Decidable (Allowed vdevs _ _ machine move))

/-- The only active command is cancelled, and its cancellation has yet to take the lock
again. -/
def cancelledMachine : Machine :=
  (Lib.play step (fun machine move => machine.Promised sampleVdevs move) (initial .nonScan)
    [.request {} (some (sampleCmd 0 1 false)), .run 0 {}, .run 0 {}, .run 0 {},
      .cancel [({ vdev := some 0, cmdType := .nonscan }, true)], .run 1 {}]).get
    (by decide +kernel)

def removedMachine : Machine :=
  (Lib.play step (SparingMove sampleVdevs) (initial .nonScan)
    [.request {} (some (sampleCmd 0 1 false)), .run 0 {}, .run 0 {}, .run 0 {},
      .remove (sampleCmd 0 1 false).key, .run 1 {}]).get (by decide +kernel)

end Machine

end VendorModules.Ser
