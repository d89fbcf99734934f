import VendorModules.Ser.Blocking
import VendorModules.Ser.Waking

namespace VendorModules.Ser

namespace Queue

variable {queue after : Queue} {vdevs : Finset VdevId} {n : NodeId}
  {frames frames' : List Frame}

/-- The flag is set for an active blocking command, or for one that a cancellation has just
taken off the lists. -/
def Flagged (queue : Queue) (frames : List Frame) : Prop :=
  queue.blockingCmdActive = true →
    (∃ m ∈ queue.active, (queue.node m).isBlocking = true) ∨
      ∃ frame ∈ frames, frame.blocks = true

theorem Flagged.congr (flagged : queue.Flagged frames)
    (active : ∀ m ∈ queue.active, (queue.node m).isBlocking = true →
      m ∈ after.active ∧ (after.node m).isBlocking = true)
    (flag : after.blockingCmdActive = true → queue.blockingCmdActive = true)
    (stays : ∀ frame ∈ frames, frame.blocks = true →
      ∃ frame ∈ frames', frame.blocks = true) :
    after.Flagged frames' := by
  intro set
  rcases flagged (flag set) with ⟨m, there, blocks⟩ | ⟨frame, member, blocks⟩
  · obtain ⟨there, blocks⟩ := active m there blocks
    exact .inl ⟨m, there, blocks⟩
  · exact .inr (stays frame member blocks)

theorem Flagged.listed (flagged : queue.Flagged frames)
    (active : after.active.Perm (n :: queue.active))
    (nodes : ∀ m, m = n ∨ m ∈ queue.active →
      (after.node m).isBlocking = (queue.node m).isBlocking)
    (flag : after.blockingCmdActive =
      (queue.blockingCmdActive || (queue.node n).isBlocking)) :
    after.Flagged frames := by
  intro set
  rw [flag, Bool.or_eq_true] at set
  rcases set with set | blocks
  · refine (flagged set).imp_left fun ⟨m, there, blocks⟩ => ⟨m, ?_, ?_⟩
    · exact active.mem_iff.2 (List.mem_cons_of_mem _ there)
    · rw [nodes m (.inr there)]
      exact blocks
  · refine .inl ⟨n, active.mem_iff.2 List.mem_cons_self, ?_⟩
    rw [nodes n (.inl rfl)]
    exact blocks

theorem Flagged.enqueued (flagged : queue.Flagged frames) (linked : queue.Linked vdevs)
    (kind : queue.kind = .nonScan) {lookups : Lookups} {accepted : Accepted}
    {status : Status} {taken : Option NodeId}
    (enqueued : queue.Enqueued lookups accepted status taken after) :
    after.Flagged frames := by
  have kept : ∀ {last : Queue}, last.active = queue.active →
      (∀ m ∈ queue.active, (last.node m).isBlocking = (queue.node m).isBlocking) →
        last.blockingCmdActive = queue.blockingCmdActive → last.Flagged frames := by
    intro last active nodes flag
    refine flagged.congr (fun m there blocks => ⟨active ▸ there, ?_⟩) (fun set => flag ▸ set)
      fun frame member blocks => ⟨frame, member, blocks⟩
    rw [nodes m there]
    exact blocks
  have rest : ∀ n pool, ((queue.counted accepted.cmd).takeNode n pool accepted).active =
        queue.active ∧
      ((queue.counted accepted.cmd).takeNode n pool accepted).blockingCmdActive =
        queue.blockingCmdActive ∧
      ((queue.counted accepted.cmd).takeNode n pool accepted).kind = .nonScan := by
    intro n pool
    obtain ⟨waiting, same⟩ := counted_takeNode queue accepted.cmd n pool accepted
    rw [same]
    exact ⟨rfl, rfl, kind⟩
  cases enqueued with
  | refused => exact flagged
  | turnedAway =>
    obtain ⟨waiting, same⟩ := counted_eq queue accepted.cmd
    rw [same]
    exact kept rfl (fun _ _ => rfl) rfl
  | @full n pool _ _ first =>
    obtain ⟨loose, -, nodes⟩ := linked.taken first accepted
    obtain ⟨active, flag, -⟩ := rest n pool
    rw [if_pos kind]
    obtain ⟨disable, same⟩ := disableFor_eq
      ((queue.counted accepted.cmd).takeNode n pool accepted) accepted.cmd
    rw [same]
    refine kept active (fun m there => ?_) flag
    rw [← nodes m (List.mem_append_right _ there)]
    exact congrArg Node.isBlocking (loose.freeNode_node
      (List.mem_append_right _ (List.mem_append_right _ (active ▸ there))))
  | @pending n pool _ _ _ first _ _ lists =>
    obtain ⟨-, -, nodes⟩ := linked.taken first accepted
    obtain ⟨active, flag, -⟩ := rest n pool
    refine kept (lists.active.trans active) (fun m there => ?_) (lists.blocking.trans flag)
    rw [lists.node, nodes m (List.mem_append_right _ there)]
  | @active n pool last _ _ first _ _ lists =>
    obtain ⟨-, node, nodes⟩ := linked.taken first accepted
    obtain ⟨active, flag, kind'⟩ := rest n pool
    have taken : ((queue.counted accepted.cmd).takeNode n pool accepted).Flagged frames :=
      kept active (fun m there => by rw [nodes m (List.mem_append_right _ there)]) flag
    obtain ⟨-, places, contents, -, raised⟩ := lists.effect kind'
    refine taken.listed (n := n) places (fun m _ => Node.isBlocking_congr (contents m)) ?_
    rw [raised]
    simp [node, Node.isBlocking]

end Queue

section Steps

variable {queue after : Queue} {vdevs : Finset VdevId} {choice : Choice} {frame : Frame}
  {new others : List Frame} {callbacks : List (Nat × CbReason)} {activating : List NodeId}
  {windows : List VdevId}

theorem Queue.Flagged.walked (flagged : queue.Flagged others) {call : CancelCall}
    (linked : queue.Linked vdevs) {isActive : Bool}
    (walked : queue.Walked call isActive new after) : after.Flagged (new ++ others) := by
  have stays : ∀ frame ∈ others, frame.blocks = true →
      ∃ frame ∈ new ++ others, frame.blocks = true := fun frame member blocks =>
    ⟨frame, List.mem_append_right _ member, blocks⟩
  cases walked with
  | ended remarked _ =>
    refine flagged.congr (fun m there blocks => ?_) (fun set => ?_) stays
    · rw [remarked.active, remarked.isBlocking]
      exact ⟨there, blocks⟩
    · rw [remarked.rest] at set
      exact set
  | @removed n accepted marked mid _ _ remarked member _ content _ unlists =>
    have listed : n ∈ marked.pdevList isActive := remarked.pdevList _ ▸ member
    have loose := (linked.remarked remarked).loose unlists listed
    have nodes : ∀ m ∈ mid.active, ((mid.freeNode n).node m).isBlocking =
        (queue.node m).isBlocking := by
      intro m there
      rw [loose.freeNode_node (List.mem_append_right _ (List.mem_append_right _ there)),
        unlists.node, remarked.isBlocking]
    intro set
    have set : queue.blockingCmdActive = true := by
      have flag : mid.blockingCmdActive = true := set
      rwa [unlists.blocking, remarked.rest] at flag
    rcases flagged set with ⟨m, there, blocks⟩ | ⟨frame, member, blocks⟩
    · rw [← remarked.active] at there
      have still : m ∈ mid.active ∨ isActive = true ∧ m = n := by
        rw [unlists.active]
        cases isActive with
        | false => exact .inl there
        | true =>
          by_cases same : m = n
          · exact .inr ⟨rfl, same⟩
          · exact .inl ((List.mem_erase_of_ne same).2 there)
      rcases still with still | ⟨rfl, rfl⟩
      · exact .inl ⟨m, still, (nodes m still).trans blocks⟩
      · refine .inr ⟨_, List.mem_cons_self, ?_⟩
        simpa [Frame.blocks, Node.isBlocking, content] using blocks
    · exact .inr (stays frame member blocks)

theorem Ran.flagged (ran : Ran queue choice frame new after callbacks)
    (kind : queue.kind = .nonScan)
    (sound : queue.Sound vdevs (frame.activating?.toList ++ activating)
      (frame.window?.toList ++ windows))
    (flagged : queue.Flagged (frame :: others)) : after.Flagged (new ++ others) := by
  have rest : frame.blocks = false → queue.Flagged others := by
    intro quiet set
    refine (flagged set).imp_right fun ⟨more, member, blocks⟩ => ?_
    rcases List.mem_cons.1 member with rfl | member
    · rw [quiet] at blocks
      cases blocks
    · exact ⟨more, member, blocks⟩
  have kept : frame.blocks = false → (∀ m ∈ queue.active, (queue.node m).isBlocking = true →
      m ∈ after.active ∧ (after.node m).isBlocking = true) →
        (after.blockingCmdActive = true → queue.blockingCmdActive = true) →
          after.Flagged (new ++ others) := fun quiet active flag =>
    (rest quiet).congr active flag fun more member blocks =>
      ⟨more, List.mem_append_right _ member, blocks⟩
  have noted : queue.Remarked after → frame.blocks = false → after.Flagged (new ++ others) := by
    intro remarked quiet
    refine kept quiet (fun m there blocks => ?_) (fun set => ?_)
    · rw [remarked.active, remarked.isBlocking]
      exact ⟨there, blocks⟩
    · rw [remarked.rest] at set
      exact set
  cases ran with
  | activate =>
    refine kept rfl (fun m there blocks => ⟨there, ?_⟩) id
    rw [← blocks]
    exact Node.isBlocking_congr (Queue.setNode_content rfl)
  | activated =>
    refine kept rfl (fun m there blocks => ⟨there, ?_⟩) id
    rw [← blocks]
    exact Node.isBlocking_congr Queue.setMarks_content
  | notStarted | settle | release | timeout | timeoutNotify => exact noted (.refl queue) rfl
  | notFound remarked => exact noted remarked rfl
  | stay moves remarked =>
    refine noted remarked ?_
    cases frame <;> first | rfl | exact moves.elim
  | stopped moves =>
    refine noted (.refl queue) ?_
    cases frame <;> first | rfl | exact moves.elim
  | cancel walked => exact (rest rfl).walked sound.linked walked
  | cancelNotify =>
    intro set
    refine (flagged set).imp_right fun ⟨more, member, blocks⟩ => ?_
    rcases List.mem_cons.1 member with rfl | member
    · exact ⟨_, List.mem_cons_of_mem _ List.mem_cons_self, blocks⟩
    · exact ⟨more, List.mem_append_right _ member, blocks⟩
  | @cancelResume cmd cancelling _ _ walked =>
    have settled : (queue.settleCancel cmd cancelling.isActive).Sound vdevs activating
        windows := Queue.Sound.resumed sound
    refine Queue.Flagged.walked ?_ settled.linked walked
    have same : (queue.settleCancel cmd cancelling.isActive).active = queue.active ∧
        (queue.settleCancel cmd cancelling.isActive).node = queue.node ∧
        ((queue.settleCancel cmd cancelling.isActive).blockingCmdActive = true →
          queue.blockingCmdActive = true ∧
            (Frame.cancelResume cmd cancelling).blocks = false) := by
      unfold Queue.settleCancel
      rw [kind]
      cases active : cancelling.isActive with
      | true => simp [Frame.blocks, active]
      | false =>
        simp only [Bool.false_eq_true, if_false]
        split <;> simp [Frame.blocks, active]
    intro set
    obtain ⟨set, quiet⟩ := same.2.2 set
    rw [same.1, same.2.1]
    exact rest quiet set
  | @dequeue _ n accepted mid active content _ unlists =>
    have loose := sound.linked.loose_markRemoved unlists active accepted.cmd.vdev
    have removed : mid.markRemoved n accepted.cmd.vdev = { mid with
        blockingCmdActive := mid.blockingCmdActive && !(mid.node n).isBlocking
        vdevActiveCmd := Function.update mid.vdevActiveCmd accepted.cmd.vdev false } := by
      unfold Queue.markRemoved
      rw [unlists.kind, kind]
    intro set
    rw [removed] at set loose ⊢
    have set : (mid.blockingCmdActive && !(mid.node n).isBlocking) = true := set
    rw [Bool.and_eq_true, Bool.not_eq_true', unlists.blocking, unlists.node] at set
    obtain ⟨set, quiet⟩ := set
    rcases rest rfl set with ⟨m, there, blocks⟩ | ⟨more, member, blocks⟩
    · have other : m ≠ n := by
        rintro rfl
        rw [quiet] at blocks
        cases blocks
      refine .inl ⟨m, ?_, ?_⟩
      · change m ∈ mid.active
        rw [unlists.active, if_pos rfl]
        exact (List.mem_erase_of_ne other).2 there
      · refine (congrArg Node.isBlocking (Queue.setNode_of_ne _ _ _ other)).trans ?_
        rw [unlists.node]
        exact blocks
    · exact .inr ⟨more, List.mem_append_right _ member, blocks⟩
  | @move _ _ n accepted marked _ moves remarked promotes _ _ _ _ goesOn =>
    obtain ⟨-, active, content, -, flag⟩ := promotes.effect (remarked.kind.trans kind)
    have quiet : frame.blocks = false := by
      cases frame <;> first | rfl | exact moves.elim
    have before : marked.Flagged (new ++ others) := by
      refine (rest quiet).congr (fun m there blocks => ?_) (fun set => ?_)
        fun more member blocks => ⟨more, List.mem_append_right _ member, blocks⟩
      · rw [remarked.active, remarked.isBlocking]
        exact ⟨there, blocks⟩
      · rw [remarked.rest] at set
        exact set
    refine before.listed (n := n) active (fun m _ => Node.isBlocking_congr (content m)) ?_
    rw [flag]
    simp [Node.isBlocking, promotes.content]

theorem flagged_kept (vdevs : Finset VdevId) (requests : Queue → Lookups → Command → Prop)
    (steps : Queue → Frame → Prop) :
    Kept vdevs .nonScan requests steps Queue.Flagged where
  initial := fun set => by cases set
  perm := fun flagged perm set => (flagged set).imp_right fun ⟨frame, member, blocks⟩ =>
    ⟨frame, perm.mem_iff.1 member, blocks⟩
  spawn := fun flagged _ set => (flagged set).imp_right fun ⟨frame, member, blocks⟩ =>
    ⟨frame, List.mem_append_left _ member, blocks⟩
  disable := fun flagged => flagged
  enqueued := by
    intro queue frames lookups accepted status taken after kind sound flagged _ enqueued
    refine (flagged.enqueued sound.linked kind enqueued).congr (fun m there blocks =>
      ⟨there, blocks⟩) id fun frame member blocks => ⟨frame, ?_, blocks⟩
    exact List.mem_append_right _ member
  ran := by
    intro queue choice frame new others after callbacks kind sound flagged _ ran
    exact ran.flagged kind sound flagged

def Queue.Attends (queue : Queue) (frame : Frame) : Prop :=
  queue.SparesWaiting frame ∧ queue.Prompt frame

instance (queue : Queue) (frame : Frame) : Decidable (queue.Attends frame) :=
  inferInstanceAs (Decidable (_ ∧ _))

theorem counted_kept (vdevs : Finset VdevId) :
    Kept vdevs .nonScan Queue.Balances Queue.Attends fun queue frames =>
      queue.Placed frames ∧ queue.Waits (frames.countP Frame.uncounts) ∧
        frames.countP Frame.uncounts = 0 :=
  (placed_kept vdevs .nonScan _ _).both ((waits_kept vdevs _).both
    ((sparesWaiting_kept vdevs _).narrow fun _ _ attends => attends.1))

theorem awaited_kept (vdevs : Finset VdevId) :
    Kept vdevs .nonScan Queue.Balances Queue.Attends fun queue frames =>
      (queue.Placed frames ∧ queue.Waits (frames.countP Frame.uncounts) ∧
        frames.countP Frame.uncounts = 0) ∧ queue.Awaited frames where
  initial := ⟨(counted_kept vdevs).initial, fun n there => by cases there⟩
  perm := fun holds perm => ⟨(counted_kept vdevs).perm holds.1 perm, fun n there =>
    (holds.2 n there).imp_right fun ⟨frame, member, wakes⟩ =>
      ⟨frame, perm.mem_iff.1 member, wakes⟩⟩
  spawn := fun holds starts => ⟨(counted_kept vdevs).spawn holds.1 starts, fun n there =>
    (holds.2 n there).imp_right fun ⟨frame, member, wakes⟩ =>
      ⟨frame, List.mem_append_left _ member, wakes⟩⟩
  disable := by
    intro queue frames vdev holds
    refine ⟨(counted_kept vdevs).disable holds.1, fun n there => ?_⟩
    have grows : queue.Grows { queue with
        queueDisable := Function.update queue.queueDisable vdev true } n :=
      .of_same rfl (fun _ _ => rfl) rfl rfl there
    exact grows.held (holds.2 n there) fun frame member _ => .inl member
  enqueued := by
    intro queue frames lookups accepted status taken after kind sound holds balances enqueued
    refine ⟨(counted_kept vdevs).enqueued kind sound holds.1 balances enqueued, ?_⟩
    obtain ⟨⟨placed, waits, none⟩, awaited⟩ := holds
    rw [none] at waits
    have next := awaited.enqueued sound.linked kind (waits.countsWaiting placed.nodes) enqueued
    exact fun n there => (next n there).imp_right fun ⟨frame, member, wakes⟩ =>
      ⟨frame, List.mem_append_right _ member, wakes⟩
  ran := by
    intro queue choice frame new others after callbacks kind sound holds attends ran
    refine ⟨(counted_kept vdevs).ran kind sound holds.1 attends ran, ?_⟩
    obtain ⟨⟨placed, waits, none⟩, awaited⟩ := holds
    have settled : frame.uncounts = false := by
      rw [List.countP_cons, Nat.add_eq_zero_iff] at none
      simpa using none.2
    rw [none] at waits
    exact ran.awaited kind sound awaited (waits.countsWaiting placed.nodes) settled attends.1
      attends.2

end Steps

namespace Machine

variable {machine : Machine} {vdevs : Finset VdevId}

/-- The moves that count blocking commands just when they become pending, cancel none of
those, and are prompt. -/
def AttendingMove (vdevs : Finset VdevId) : Machine → Move → Prop :=
  Allowed vdevs Queue.Balances Queue.Attends

instance (vdevs : Finset VdevId) (machine : Machine) (move : Move) :
    Decidable (AttendingMove vdevs machine move) :=
  inferInstanceAs (Decidable (Allowed vdevs _ _ machine move))

def heldMoves : List Move :=
  [.request {} (some (sampleCmd 0 1 false)), .run 0 {}, .run 0 {}, .run 0 {},
    .request {} (some (sampleCmd 1 2 true))]

def heldMachine : Machine :=
  (Lib.play step (AttendingMove sampleVdevs) (initial .nonScan) heldMoves).get
    (by decide +kernel)

/-- The blocking command is promoted when the active one is removed, and a later one waits
for it. -/
def promotedMachine : Machine :=
  (Lib.play step (AttendingMove sampleVdevs) (initial .nonScan)
    (heldMoves ++ [.request {} (some (sampleCmd 0 3 false)),
      .remove (sampleCmd 0 1 false).key, .run 3 {}, .run 3 {}, .run 3 {}, .run 3 {}, .run 3 {},
      .run 3 {}, .run 3 {}])).get (by decide +kernel)

end Machine

end VendorModules.Ser
