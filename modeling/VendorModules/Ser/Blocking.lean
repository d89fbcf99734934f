import VendorModules.Ser.Runs

namespace VendorModules.Ser

namespace Frame

/-- The frame has taken an active blocking command off the lists, and the flags have still
to follow. -/
def blocks : Frame → Bool
  | .cancelNotify accepted cancelling => cancelling.isActive && accepted.cmd.isBlocking
  | .cancelResume cmd cancelling => cancelling.isActive && cmd.isBlocking
  | _ => false

def startsMove : Frame → Bool
  | .movePending _ _ => true
  | .cancelEnd => true
  | _ => false

def movesOf? : Frame → Option VdevId
  | .movePending vdev false => some vdev
  | _ => none

theorem window_of_blocks {frame : Frame} (blocks : frame.blocks = true) :
    ∃ vdev, frame.window? = some vdev := by
  cases frame <;> simp_all [Frame.blocks, Frame.window?]

end Frame

namespace Queue

variable {queue after : Queue} {vdevs : Finset VdevId} {n : NodeId} {frames : List Frame}

/-- A blocking command is active alone, the flag tells of it, and none is active while a
cancellation has still to clear the flag of another. -/
structure Exclusive (queue : Queue) (frames : List Frame) : Prop where
  solo : ∀ n ∈ queue.active, (queue.node n).isBlocking = true → ∀ m ∈ queue.active, m = n
  flagged : ∀ n ∈ queue.active, (queue.node n).isBlocking = true →
    queue.blockingCmdActive = true
  freed : (∃ frame ∈ frames, frame.blocks = true) →
    ∀ n ∈ queue.active, (queue.node n).isBlocking = false

namespace Exclusive

theorem congr (exclusive : queue.Exclusive frames) {frames' : List Frame}
    (active : after.active = queue.active)
    (blocking : ∀ m ∈ queue.active, (after.node m).isBlocking = (queue.node m).isBlocking)
    (flag : after.blockingCmdActive = queue.blockingCmdActive)
    (blocks : (∃ frame ∈ frames', frame.blocks = true) → ∃ frame ∈ frames, frame.blocks = true) :
    after.Exclusive frames' := by
  refine ⟨fun m there block other here => ?_, fun m there block => ?_,
    fun opened m there => ?_⟩
  · rw [active] at there here
    rw [blocking m there] at block
    exact exclusive.solo m there block other here
  · rw [active] at there
    rw [blocking m there] at block
    rw [flag]
    exact exclusive.flagged m there block
  · rw [active] at there
    rw [blocking m there]
    exact exclusive.freed (blocks opened) m there

theorem remarked (exclusive : queue.Exclusive frames) (remarked : queue.Remarked after) :
    after.Exclusive frames :=
  exclusive.congr remarked.active (fun m _ => remarked.isBlocking m) (by rw [remarked.rest]) id

theorem unlists (exclusive : queue.Exclusive frames) (nodup : queue.active.Nodup)
    (active : n ∈ queue.active) (unlists : queue.Unlists n true after)
    {frames' : List Frame}
    (blocks : (∃ frame ∈ frames', frame.blocks = true) →
      (∃ frame ∈ frames, frame.blocks = true) ∨ (queue.node n).isBlocking = true) :
    after.Exclusive frames' ∧
      ((queue.node n).isBlocking = true →
        ∀ m ∈ after.active, (after.node m).isBlocking = false) := by
  have less : ∀ m ∈ after.active, m ∈ queue.active ∧ m ≠ n := by
    intro m there
    rw [unlists.active, if_pos rfl] at there
    exact ⟨List.mem_of_mem_erase there, fun same => nodup.not_mem_erase (same ▸ there)⟩
  have gone : (queue.node n).isBlocking = true →
      ∀ m ∈ after.active, (after.node m).isBlocking = false := by
    intro block m there
    exact absurd (exclusive.solo n active block m (less m there).1) (less m there).2
  refine ⟨⟨fun m there block other here => ?_, fun m there block => ?_,
    fun opened m there => ?_⟩, gone⟩
  · rw [unlists.node] at block
    exact exclusive.solo m (less m there).1 block other (less other here).1
  · rw [unlists.node] at block
    rw [unlists.blocking]
    exact exclusive.flagged m (less m there).1 block
  · rcases blocks opened with before | block
    · rw [unlists.node]
      exact exclusive.freed before m (less m there).1
    · exact gone block m there

theorem freeNode (exclusive : queue.Exclusive frames) (loose : queue.Loose n) :
    (queue.freeNode n).Exclusive frames := by
  refine exclusive.congr rfl (fun m there => ?_) rfl id
  rw [loose.freeNode_node (List.mem_append_right _ (List.mem_append_right _ there))]

theorem setFlags (exclusive : queue.Exclusive frames) {bits disable : VdevId → Bool}
    {waiting : UInt16} :
    ({ queue with
        vdevActiveCmd := bits
        queueDisable := disable
        blockingCmdWaiting := waiting } : Queue).Exclusive frames :=
  exclusive.congr rfl (fun _ _ => rfl) rfl id

/-- A command becomes active: a blocking one where none is active, another where no
blocking one is. -/
theorem listed (kind : queue.kind = .nonScan)
    {cmd : Command} (lists : queue.Lists n cmd true after) {ticket : Nat}
    (content : (queue.node n).content = some ⟨ticket, cmd⟩)
    (alone : cmd.isBlocking = true →
      queue.active = [] ∧ ¬∃ frame ∈ frames, frame.blocks = true)
    (quiet : cmd.isBlocking = false → ∀ m ∈ queue.active, (queue.node m).isBlocking = false) :
    ((after.markActive cmd).setMarks n
      fun marks => { marks with markedForActivation := true }).Exclusive frames := by
  have own : (queue.node n).isBlocking = cmd.isBlocking := by simp [Node.isBlocking, content]
  obtain ⟨-, active, contents, -, flag⟩ := lists.effect kind
  generalize (after.markActive cmd).setMarks n
    (fun marks => { marks with markedForActivation := true }) = last at *
  have members : ∀ m, m ∈ last.active ↔ m = n ∨ m ∈ queue.active := fun m =>
    active.mem_iff.trans List.mem_cons
  have nodes : ∀ m, (last.node m).isBlocking = (queue.node m).isBlocking := fun m =>
    Node.isBlocking_congr (contents m)
  cases block : cmd.isBlocking with
  | true =>
    obtain ⟨empty, shut⟩ := alone block
    have sole : ∀ m ∈ last.active, m = n := by
      intro m there
      simpa [empty] using (members m).1 there
    refine ⟨fun m there _ other here => ?_, fun m there _ => ?_,
      fun opened => absurd opened shut⟩
    · rw [sole m there, sole other here]
    · exact flag.trans (by simp [block])
  | false =>
    have free : ∀ m ∈ last.active, (queue.node m).isBlocking = false := by
      intro m there
      rcases (members m).1 there with rfl | there
      · rw [own, block]
      · exact quiet block m there
    refine ⟨fun m there blocking => ?_, fun m there blocking => ?_,
      fun _ m there => (nodes m).trans (free m there)⟩
    · rw [nodes, free m there] at blocking
      cases blocking
    · rw [nodes, free m there] at blocking
      cases blocking

theorem markRemoved (exclusive : queue.Exclusive frames) (kind : queue.kind = .nonScan)
    (gone : (queue.node n).isBlocking = true →
      ∀ m ∈ queue.active, (queue.node m).isBlocking = false) (vdev : VdevId) :
    (queue.markRemoved n vdev).Exclusive frames := by
  unfold Queue.markRemoved
  rw [kind]
  refine ⟨exclusive.solo, fun m there blocking => ?_, exclusive.freed⟩
  have flag := exclusive.flagged m there blocking
  cases block : (queue.node n).isBlocking with
  | false => simp [flag]
  | true =>
    rw [gone block m there] at blocking
    cases blocking

theorem settleCancel (kind : queue.kind = .nonScan) {cmd : Command} {isActive : Bool}
    {cancelling : Cancelling} (same : cancelling.isActive = isActive)
    (exclusive : queue.Exclusive (.cancelResume cmd cancelling :: frames)) :
    (queue.settleCancel cmd isActive).Exclusive frames := by
  have less : queue.Exclusive frames :=
    ⟨exclusive.solo, exclusive.flagged, fun ⟨frame, member, blocks⟩ =>
      exclusive.freed ⟨frame, List.mem_cons_of_mem _ member, blocks⟩⟩
  unfold Queue.settleCancel
  split
  next scan =>
    rw [kind] at scan
    cases scan
  cases isActive with
  | false =>
    simp only [Bool.false_eq_true, if_false]
    split
    · exact less.setFlags
    · exact less
  | true =>
    simp only [if_true]
    refine ⟨less.solo, fun m there blocking => ?_, less.freed⟩
    have flag := less.flagged m there blocking
    cases block : cmd.isBlocking with
    | false => simp [flag]
    | true =>
      have none := exclusive.freed ⟨_, List.mem_cons_self, by simp [Frame.blocks, same, block]⟩
      rw [none m there] at blocking
      cases blocking

end Exclusive

def Cautious (queue : Queue) (frame : Frame) : Prop :=
  (frame.startsMove = true → queue.blockingCmdActive = true → ∀ n ∈ queue.pending,
    (queue.node n).vdev?.any queue.vdevActiveCmd = true) ∧
  ∀ vdev ∈ frame.movesOf?, queue.blockingCmdWaiting = 0 →
    ∀ n ∈ (queue.vdevPending vdev).head?, (queue.node n).isBlocking = true →
      queue.anyVdevCmdActive = true → (queue.node n).vdev?.any queue.vdevActiveCmd = true

instance (queue : Queue) (frame : Frame) : Decidable (queue.Cautious frame) :=
  inferInstanceAs (Decidable (_ ∧ _))

end Queue

section Steps

variable {queue after : Queue} {vdevs : Finset VdevId} {choice : Choice} {frame : Frame}
  {new others : List Frame} {callbacks : List (Nat × CbReason)}

theorem Queue.Linked.nodup_active (linked : queue.Linked vdevs) : queue.active.Nodup := by
  have all := linked.nodup
  rw [List.nodup_append, List.nodup_append] at all
  exact all.2.1.2.1

theorem Queue.Linked.active_nil (linked : queue.Linked vdevs) (kind : queue.kind = .nonScan)
    (none : queue.anyVdevCmdActive = false) : queue.active = [] := by
  rw [List.eq_nil_iff_forall_not_mem]
  intro n active
  obtain ⟨accepted, content, -⟩ := linked.filled n (List.mem_append_right _ active)
  have bit := linked.bits kind n active accepted.cmd.vdev (by simp [Node.vdev?, content])
  exact absurd ⟨_, bit⟩ (of_decide_eq_false none)

theorem Queue.Sound.not_blocks {activating : List NodeId} {frames : List Frame}
    (sound : queue.Sound vdevs activating (frames.filterMap Frame.window?))
    (kind : queue.kind = .nonScan) (none : queue.anyVdevCmdActive = false) :
    ¬∃ frame ∈ frames, frame.blocks = true := by
  rintro ⟨frame, member, blocks⟩
  obtain ⟨vdev, window⟩ := Frame.window_of_blocks blocks
  have bit := (sound.idle kind vdev (List.mem_filterMap.2 ⟨frame, member, window⟩)).1
  exact absurd ⟨_, bit⟩ (of_decide_eq_false none)

theorem Queue.Exclusive.walked (exclusive : queue.Exclusive others)
    (linked : queue.Linked vdevs) {call : CancelCall} {isActive : Bool}
    (walked : queue.Walked call isActive new after) : after.Exclusive (new ++ others) := by
  cases walked with
  | ended remarked last =>
    have kept := exclusive.remarked remarked
    rcases last with ⟨-, rfl⟩ | ⟨-, rfl⟩
    · exact kept
    · refine kept.congr rfl (fun _ _ => rfl) rfl ?_
      rintro ⟨more, member, blocks⟩
      rcases List.mem_cons.1 member with rfl | member
      · cases blocks
      · exact ⟨more, member, blocks⟩
  | @removed n accepted marked mid hasPsoc walk remarked member _ content _ unlists =>
    have listed : n ∈ marked.pdevList isActive := by
      rw [remarked.pdevList]
      exact member
    have before := linked.remarked remarked
    have loose := before.loose unlists listed
    have kept := exclusive.remarked remarked
    refine Queue.Exclusive.freeNode ?_ loose
    have block : (marked.node n).isBlocking = accepted.cmd.isBlocking := by
      rw [remarked.isBlocking]
      simp [Node.isBlocking, content]
    cases isActive with
    | true =>
      refine (kept.unlists before.nodup_active listed unlists ?_).1
      rintro ⟨more, there, blocks⟩
      rcases List.mem_cons.1 there with rfl | there
      · refine .inr (block.trans ?_)
        simpa [Frame.blocks] using blocks
      · exact .inl ⟨more, there, blocks⟩
    | false =>
      refine kept.congr unlists.active (fun m _ => by rw [unlists.node]) unlists.blocking ?_
      rintro ⟨more, there, blocks⟩
      rcases List.mem_cons.1 there with rfl | there
      · cases blocks
      · exact ⟨more, there, blocks⟩

theorem Ran.exclusive (ran : Ran queue choice frame new after callbacks)
    (kind : queue.kind = .nonScan) {activating : List NodeId}
    (sound : queue.Sound vdevs (frame.activating?.toList ++ activating)
      ((frame :: others).filterMap Frame.window?))
    (exclusive : queue.Exclusive (frame :: others)) (cautious : queue.Cautious frame) :
    after.Exclusive (new ++ others) := by
  have calm : ∀ {more : List Frame}, (∀ frame ∈ more, frame.blocks = false) →
      (∃ frame ∈ more ++ others, frame.blocks = true) →
        ∃ other ∈ frame :: others, other.blocks = true := by
    rintro more calm ⟨other, member, blocks⟩
    rcases List.mem_append.1 member with there | there
    · rw [calm other there] at blocks
      cases blocks
    · exact ⟨other, List.mem_cons_of_mem _ there, blocks⟩
  have same : ∀ {more : List Frame}, (∀ frame ∈ more, frame.blocks = false) →
      queue.Exclusive (more ++ others) := fun none =>
    exclusive.congr rfl (fun _ _ => rfl) rfl (calm none)
  cases ran with
  | activate =>
    exact exclusive.congr rfl (fun m _ => Node.isBlocking_congr (Queue.setNode_content rfl)) rfl
      (calm (by simp [Frame.blocks]))
  | activated =>
    exact exclusive.congr rfl (fun m _ => Node.isBlocking_congr Queue.setMarks_content) rfl
      (calm (by simp [Frame.blocks]))
  | notStarted | release | stopped | timeoutNotify =>
    exact same (by simp [Frame.blocks])
  | settle goesOn =>
    rcases goesOn with rfl | rfl | ⟨call, rfl⟩ <;> exact same (by simp [Frame.blocks])
  | timeout goesOn =>
    rcases goesOn with rfl | ⟨-, rfl⟩ <;> exact same (by simp [Frame.blocks])
  | @cancelNotify accepted cancelling =>
    refine exclusive.congr rfl (fun _ _ => rfl) rfl ?_
    rintro ⟨other, member, blocks⟩
    simp only [List.cons_append, List.nil_append, List.mem_cons] at member
    rcases member with rfl | rfl | member
    · cases blocks
    · exact ⟨_, List.mem_cons_self, blocks⟩
    · exact ⟨other, List.mem_cons_of_mem _ member, blocks⟩
  | notFound remarked =>
    exact (exclusive.remarked remarked).congr rfl (fun _ _ => rfl) rfl (calm (by simp))
  | stay _ remarked =>
    exact (exclusive.remarked remarked).congr rfl (fun _ _ => rfl) rfl (calm (by simp))
  | cancel walked =>
    exact (@same [] (by simp)).walked sound.linked walked
  | @dequeue _ n accepted mid active content unmarked unlists =>
    have quiet : ∀ frame ∈ [Frame.movePending accepted.cmd.vdev accepted.cmd.isBlocking,
        .release accepted], frame.blocks = false := by
      simp [Frame.blocks]
    obtain ⟨left, gone⟩ := (same quiet).unlists sound.linked.nodup_active active unlists .inl
    have marked := left.markRemoved (unlists.kind.trans kind)
      (fun block => gone (by rwa [unlists.node] at block)) accepted.cmd.vdev
    exact marked.freeNode (sound.linked.loose_markRemoved unlists active _)
  | @move _ _ n accepted marked _ moves remarked promotes _ clear chosen again goesOn =>
    have quiet : ∀ more ∈ new, more.blocks = false := by
      rcases goesOn with ⟨-, rfl⟩ | ⟨-, lookup, -, rfl⟩ <;> simp [Frame.blocks]
    have idle : (queue.node n).vdev?.any queue.vdevActiveCmd = false := by
      have content : (queue.node n).content = some accepted := by
        rw [← remarked.content]
        exact promotes.content
      simpa [Node.vdev?, content] using clear kind
    have block : (queue.node n).isBlocking = accepted.cmd.isBlocking := by
      rw [← remarked.isBlocking]
      simp [Node.isBlocking, promotes.content]
    obtain ⟨pending, content, mid, last, unlists, lists, rfl⟩ := promotes
    rw [remarked.pending] at pending
    have active : mid.active = queue.active := by
      rw [unlists.active, remarked.active]
      rfl
    have alone : accepted.cmd.isBlocking = true → queue.anyVdevCmdActive = false := by
      intro blocking
      rcases chosen kind with alone | ⟨vdev, rest, rfl, waiting, first⟩
      · exact alone blocking
      · by_contra busy
        have covered := cautious.2 vdev rfl waiting n (by rw [first]; rfl)
          (block.trans blocking) (by simpa using busy)
        rw [idle] at covered
        cases covered
    have none : accepted.cmd.isBlocking = false →
        ∀ m ∈ queue.active, (queue.node m).isBlocking = false := by
      intro _ m there
      by_contra blocking
      have flag := exclusive.flagged m there (by simpa using blocking)
      by_cases starts : frame.startsMove = true
      · have covered := cautious.1 starts flag n pending
        rw [idle] at covered
        cases covered
      · have next : ∃ lookup, frame = .moveNext lookup := by
          cases frame <;>
            first | exact moves.elim | exact ⟨_, rfl⟩ | simp [Frame.startsMove] at starts
        rw [again next] at flag
        cases flag
    have listed : ((last.markActive accepted.cmd).setMarks n
        fun marks => { marks with markedForActivation := true }).Exclusive
          (new ++ others) := by
      refine .listed (unlists.kind.trans (remarked.kind.trans kind)) lists
        (by rw [unlists.node]; exact content) (fun blocking => ?_)
        (fun blocking m there => ?_)
      · refine ⟨active.trans (sound.linked.active_nil kind (alone blocking)), fun some => ?_⟩
        exact Queue.Sound.not_blocks sound kind (alone blocking) (calm quiet some)
      · rw [active] at there
        rw [unlists.node, remarked.isBlocking]
        exact none blocking m there
    dsimp only
    split
    · exact listed.setFlags
    · exact listed
  | @cancelResume cmd cancelling _ _ walked =>
    have settled := Queue.Exclusive.settleCancel kind rfl exclusive
    rw [filterMap_cons_toList] at sound
    have linked : (queue.settleCancel cmd cancelling.isActive).Sound vdevs activating
        (others.filterMap Frame.window?) := Queue.Sound.resumed sound
    exact settled.walked linked.linked walked

theorem Queue.Exclusive.enqueued (exclusive : queue.Exclusive others)
    (kind : queue.kind = .nonScan) {activating : List NodeId}
    (sound : queue.Sound vdevs activating (others.filterMap Frame.window?))
    {lookups : Lookups} {accepted : Accepted} {status : Status} {taken : Option NodeId}
    (enqueued : queue.Enqueued lookups accepted status taken after) :
    after.Exclusive others := by
  have counted : (queue.counted accepted.cmd).Exclusive others := by
    obtain ⟨waiting, same⟩ := counted_eq queue accepted.cmd
    rw [same]
    exact exclusive.setFlags
  have blocking : ∀ {n pool}, queue.pool = n :: pool → ∀ m ∈ queue.active,
      (((queue.counted accepted.cmd).takeNode n pool accepted).node m).isBlocking =
        (queue.node m).isBlocking := by
    intro n pool first m there
    rw [(sound.linked.taken first accepted).2.2 m (List.mem_append_right _ there)]
  have taken : ∀ {n pool}, queue.pool = n :: pool →
      ((queue.counted accepted.cmd).takeNode n pool accepted).Exclusive others := by
    intro n pool first
    have nodes := blocking first
    obtain ⟨waiting, same⟩ := counted_takeNode queue accepted.cmd n pool accepted
    rw [same] at nodes ⊢
    exact exclusive.congr rfl nodes rfl id
  cases enqueued with
  | refused => exact exclusive
  | turnedAway => exact counted
  | @full n pool _ _ first =>
    obtain ⟨loose, -, -⟩ := sound.linked.taken first accepted
    rw [if_pos kind]
    obtain ⟨disable, same⟩ := disableFor_eq
      ((queue.counted accepted.cmd).takeNode n pool accepted) accepted.cmd
    rw [same]
    exact Queue.Exclusive.freeNode (taken first).setFlags loose
  | pending _ _ first _ _ lists =>
    exact (taken first).congr lists.active (fun m _ => by rw [lists.node]) lists.blocking id
  | @active n pool _ _ _ first admits _ lists =>
    obtain ⟨-, node, -⟩ := sound.linked.taken first accepted
    obtain ⟨alone, free⟩ := admitted_nonScan admits kind
    have ready : ((queue.counted accepted.cmd).takeNode n pool accepted).kind = .nonScan ∧
        ((queue.counted accepted.cmd).takeNode n pool accepted).active = queue.active := by
      obtain ⟨waiting, same⟩ := counted_takeNode queue accepted.cmd n pool accepted
      rw [same]
      exact ⟨kind, rfl⟩
    refine .listed ready.1 lists (by rw [node]) (fun blocking => ⟨?_, ?_⟩)
      fun notBlocking m there => ?_
    · exact ready.2.trans (sound.linked.active_nil kind (alone blocking))
    · exact sound.not_blocks kind (alone blocking)
    · rw [ready.2] at there
      rw [blocking first m there]
      by_contra block
      have flag := exclusive.flagged m there (by simpa using block)
      rw [(free notBlocking).1] at flag
      cases flag

end Steps

namespace Machine

variable {machine : Machine} {vdevs : Finset VdevId}

theorem exclusive_kept (vdevs : Finset VdevId) :
    Kept vdevs .nonScan (fun _ _ _ => True) Queue.Cautious Queue.Exclusive where
  initial := ⟨by simp [Queue.initial], by simp [Queue.initial], by simp⟩
  perm := fun exclusive perm => exclusive.congr rfl (fun _ _ => rfl) rfl
    fun ⟨frame, member, blocks⟩ => ⟨frame, perm.mem_iff.2 member, blocks⟩
  spawn := by
    intro queue frames thread exclusive starts
    refine exclusive.congr rfl (fun _ _ => rfl) rfl ?_
    rintro ⟨frame, member, blocks⟩
    rcases List.mem_append.1 member with member | member
    · exact ⟨frame, member, blocks⟩
    · have start := starts frame member
      cases frame <;> first | cases blocks | cases start
  disable := fun exclusive => exclusive.setFlags
  enqueued := by
    intro queue frames lookups accepted status taken after kind sound exclusive _ enqueued
    refine (exclusive.enqueued kind sound enqueued).congr rfl (fun _ _ => rfl) rfl ?_
    rintro ⟨frame, member, blocks⟩
    rcases List.mem_append.1 member with member | member
    · cases taken with
      | none => simp at member
      | some n =>
        obtain rfl : frame = .activate n := by simpa using member
        cases blocks
    · exact ⟨frame, member, blocks⟩
  ran := by
    intro queue choice frame new others after callbacks kind sound exclusive cautious ran
    rw [← filterMap_cons_toList Frame.window?] at sound
    exact ran.exclusive kind sound exclusive cautious

def CautiousMove (vdevs : Finset VdevId) : Machine → Move → Prop :=
  Allowed vdevs (fun _ _ _ => True) Queue.Cautious

instance (vdevs : Finset VdevId) (machine : Machine) (move : Move) :
    Decidable (CautiousMove vdevs machine move) :=
  inferInstanceAs (Decidable (Allowed vdevs _ _ machine move))

/-- In every run whose promotions are cautious, a vdev has at most one command active, and
an active blocking command is the only one on the active list. -/
theorem active_of_reachable (few : vdevs.card ≤ pdevMaxVdevs)
    (reached : Lib.Reachable (· = initial .nonScan) (Lib.StepOf step (CautiousMove vdevs))
      machine) :
    (∀ vdev, (machine.queue.active.filter (machine.queue.isOn vdev)).length ≤ 1) ∧
      ∀ n ∈ machine.queue.active, (machine.queue.node n).isBlocking = true →
        machine.queue.active = [n] := by
  obtain ⟨sound, exclusive⟩ := kept_of_reachable (exclusive_kept vdevs) few reached
  have linked := sound.queue.linked
  refine ⟨fun vdev => ?_, fun n active blocking => ?_⟩
  · rw [← List.toFinset_card_of_nodup (linked.nodup_active.filter _), Finset.card_le_one]
    intro n first m second
    obtain ⟨first, on⟩ := List.mem_filter.1 (List.mem_toFinset.1 first)
    obtain ⟨second, on'⟩ := List.mem_filter.1 (List.mem_toFinset.1 second)
    simp only [Queue.isOn, beq_iff_eq] at on on'
    exact linked.single sound.ofKind n first m second (on.trans on'.symm)
  · by_contra other
    rcases (linked.nodup_active.ne_singleton_iff n).1 other with empty | ⟨m, there, differs⟩
    · rw [empty] at active
      cases active
    · exact differs (exclusive.solo n active blocking m there)

def overtakenMoves : List Move :=
  [.request {} (some (sampleCmd 0 1 false)), .run 0 {}, .run 0 {}, .run 0 {},
    .request {} (some (sampleCmd 0 2 false)), .remove (sampleCmd 0 1 false).key, .run 2 {},
    .request {} (some (sampleCmd 1 3 true)), .run 2 {}]

def overtakenMachine : Machine :=
  (Lib.play step (fun machine move => machine.Promised sampleVdevs move) (initial .nonScan)
    overtakenMoves).get (by decide +kernel)

theorem overtakenMachine_not_alone :
    overtakenMachine.Reachable sampleVdevs .nonScan ∧
      ∃ n ∈ overtakenMachine.queue.active,
        (overtakenMachine.queue.node n).isBlocking = true ∧
          overtakenMachine.queue.active ≠ [n] := by
  have start : (initial .nonScan).Reachable sampleVdevs .nonScan := .start rfl
  exact ⟨Lib.play_reachable start _, by decide +kernel⟩

def cautiousMachine : Machine :=
  (Lib.play step (CautiousMove sampleVdevs) (initial .nonScan)
    [.request {} (some (sampleCmd 0 1 false)), .run 0 {}, .run 0 {}, .run 0 {},
      .request {} (some (sampleCmd 1 3 true)), .remove (sampleCmd 0 1 false).key, .run 2 {},
      .run 2 {}]).get (by decide +kernel)

theorem cautiousMachine_active :
    (∀ vdev, (cautiousMachine.queue.active.filter
        (cautiousMachine.queue.isOn vdev)).length ≤ 1) ∧
      ∀ n ∈ cautiousMachine.queue.active,
        (cautiousMachine.queue.node n).isBlocking = true →
          cautiousMachine.queue.active = [n] := by
  have start : Lib.Reachable (· = initial .nonScan) (Lib.StepOf step (CautiousMove sampleVdevs))
      (initial .nonScan) := .start rfl
  exact active_of_reachable (by decide) (Lib.play_reachable start _)

end Machine

end VendorModules.Ser
