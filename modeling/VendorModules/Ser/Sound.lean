import VendorModules.Ser.Sections

namespace VendorModules.Ser

namespace Queue

variable {queue after : Queue} {vdevs : Finset VdevId} {n : NodeId} {vdev : VdevId}
  {activating : List NodeId} {windows : List VdevId}

def NoneActive (queue : Queue) (vdev : VdevId) : Prop :=
  ∀ n ∈ queue.active, (queue.node n).vdev? ≠ some vdev

/-- A queue with the nodes that threads are activating, which nobody else takes off the
active list, and the vdevs whose active command a cancellation has taken off without
having cleared the bit. -/
structure Sound (vdevs : Finset VdevId) (queue : Queue) (activating : List NodeId)
    (windows : List VdevId) : Prop where
  linked : queue.Linked vdevs
  marked : ∀ n ∈ activating,
    n ∈ queue.active ∧ (queue.node n).marks.markedForActivation = true
  once : activating.Nodup
  idle : queue.kind = .nonScan → ∀ vdev ∈ windows,
    queue.vdevActiveCmd vdev = true ∧ queue.NoneActive vdev
  apart : queue.kind = .nonScan → windows.Nodup

namespace Sound

theorem perm (sound : queue.Sound vdevs activating windows) {activating' : List NodeId}
    {windows' : List VdevId} (nodes : activating.Perm activating')
    (opened : windows.Perm windows') : queue.Sound vdevs activating' windows' :=
  ⟨sound.linked, fun n member => sound.marked n (nodes.mem_iff.2 member),
    nodes.nodup_iff.1 sound.once,
    fun kind vdev member => sound.idle kind vdev (opened.mem_iff.2 member),
    fun kind => opened.nodup_iff.1 (sound.apart kind)⟩

theorem remarked (sound : queue.Sound vdevs activating windows)
    (remarked : queue.Remarked after) : after.Sound vdevs activating windows := by
  refine ⟨sound.linked.remarked remarked, fun n member => ?_, sound.once,
    fun kind vdev member => ?_, fun kind => sound.apart (remarked.kind ▸ kind)⟩
  · rw [remarked.active, remarked.activation]
    exact sound.marked n member
  · rw [remarked.kind] at kind
    obtain ⟨bit, none⟩ := sound.idle kind vdev member
    rw [remarked.bits]
    refine ⟨bit, fun m active => ?_⟩
    rw [remarked.active] at active
    rw [remarked.vdev?]
    exact none m active

theorem activating_active (sound : queue.Sound vdevs (n :: activating) windows) :
    n ∈ queue.active :=
  (sound.marked n List.mem_cons_self).1

theorem content (sound : queue.Sound vdevs (n :: activating) windows) :
    ∃ accepted, (queue.node n).content = some accepted := by
  obtain ⟨accepted, content, -⟩ :=
    sound.linked.filled n (List.mem_append_right _ sound.activating_active)
  exact ⟨accepted, content⟩

theorem not_pool (sound : queue.Sound vdevs (n :: activating) windows) : n ∉ queue.pool :=
  sound.linked.not_pool (List.mem_append_right _ sound.activating_active)

theorem not_pending (sound : queue.Sound vdevs (n :: activating) windows) :
    n ∉ queue.pending := by
  have all := sound.linked.nodup
  rw [List.nodup_append, List.nodup_append] at all
  exact fun pending => all.2.1.2.2 n pending n sound.activating_active rfl

theorem setNode (sound : queue.Sound vdevs (n :: activating) windows) {node : Node}
    (same : node.content = (queue.node n).content) :
    (queue.setNode n node).Linked vdevs ∧
      (∀ m ∈ activating, m ∈ queue.active ∧
        ((queue.setNode n node).node m).marks.markedForActivation = true) ∧
      (queue.kind = .nonScan → ∀ vdev ∈ windows,
        queue.vdevActiveCmd vdev = true ∧ (queue.setNode n node).NoneActive vdev) := by
  refine ⟨sound.linked.setNode same sound.not_pool fun pending =>
    absurd pending sound.not_pending, fun m member => ?_, fun kind vdev member => ?_⟩
  · have other : m ≠ n := by
      rintro rfl
      exact (List.nodup_cons.1 sound.once).1 member
    rw [setNode_of_ne _ _ _ other]
    exact sound.marked m (List.mem_cons_of_mem _ member)
  · obtain ⟨bit, none⟩ := sound.idle kind vdev member
    refine ⟨bit, fun m active => ?_⟩
    rw [Node.vdev?_congr (setNode_content same)]
    exact none m active

theorem started (sound : queue.Sound vdevs (n :: activating) windows) :
    (queue.setNode n { queue.node n with timer := true }).Sound vdevs (n :: activating)
      windows := by
  have same : ({ queue.node n with timer := true } : Node).content =
      (queue.node n).content := rfl
  obtain ⟨linked, marked, idle⟩ := sound.setNode same
  refine ⟨linked, fun m member => ?_, sound.once, idle, sound.apart⟩
  rcases List.mem_cons.1 member with rfl | member
  · rw [setNode_self]
    exact sound.marked m List.mem_cons_self
  · exact marked m member

theorem activated (sound : queue.Sound vdevs (n :: activating) windows)
    (change : Marks → Marks) :
    (queue.setMarks n change).Sound vdevs activating windows := by
  have same : ((queue.node n).setMarks change).content = (queue.node n).content := rfl
  obtain ⟨linked, marked, idle⟩ := sound.setNode same
  exact ⟨linked, marked, (List.nodup_cons.1 sound.once).2, idle, sound.apart⟩

theorem setFlags (sound : queue.Sound vdevs activating windows)
    {disable : VdevId → Bool} {blocking : Bool} {waiting : UInt16} :
    ({ queue with
        queueDisable := disable
        blockingCmdActive := blocking
        blockingCmdWaiting := waiting } : Queue).Sound vdevs activating windows :=
  ⟨sound.linked.setFlags sound.linked.bits, sound.marked, sound.once, sound.idle,
    sound.apart⟩

theorem freeNode (sound : queue.Sound vdevs activating windows) (loose : queue.Loose n) :
    (queue.freeNode n).Sound vdevs activating windows := by
  have listed : ∀ m ∈ queue.active, (queue.setNode n {}).node m = queue.node m := by
    intro m active
    refine setNode_of_ne _ _ _ fun same => ?_
    simp only [Loose, List.mem_append, not_or] at loose
    exact loose.2.2 (same ▸ active)
  refine ⟨sound.linked.freeNode loose, fun m member => ?_, sound.once,
    fun kind vdev member => ⟨(sound.idle kind vdev member).1, fun m active => ?_⟩,
    sound.apart⟩
  · obtain ⟨active, marked⟩ := sound.marked m member
    refine ⟨active, ?_⟩
    change ((queue.setNode n {}).node m).marks.markedForActivation = true
    rw [listed m active]
    exact marked
  · change ((queue.setNode n {}).node m).vdev? ≠ some vdev
    rw [listed m active]
    exact (sound.idle kind vdev member).2 m active

theorem unlists (sound : queue.Sound vdevs activating windows) {isActive : Bool}
    (unlists : queue.Unlists n isActive after) (listed : n ∈ queue.pdevList isActive)
    (unmarked : isActive = true → (queue.node n).marks.markedForActivation = false) :
    after.Sound vdevs activating windows := by
  refine ⟨sound.linked.unlists unlists listed, fun m member => ?_, sound.once,
    fun kind vdev member => ?_, fun kind => sound.apart (unlists.kind ▸ kind)⟩
  · obtain ⟨active, marked⟩ := sound.marked m member
    rw [unlists.active, unlists.node]
    refine ⟨?_, marked⟩
    cases isActive with
    | false => exact active
    | true =>
      refine (List.mem_erase_of_ne ?_).2 active
      rintro rfl
      rw [unmarked rfl] at marked
      cases marked
  · rw [unlists.kind] at kind
    obtain ⟨bit, none⟩ := sound.idle kind vdev member
    rw [unlists.bits]
    refine ⟨bit, fun m active => ?_⟩
    rw [unlists.node]
    rw [unlists.active] at active
    refine none m ?_
    cases isActive with
    | false => exact active
    | true => exact List.mem_of_mem_erase active

theorem noneActive (sound : queue.Sound vdevs activating windows)
    (kind : queue.kind = .nonScan) (unlists : queue.Unlists n true after)
    (active : n ∈ queue.active) (of : (queue.node n).vdev? = some vdev) :
    after.NoneActive vdev := by
  intro m there same
  rw [unlists.active] at there
  rw [unlists.node] at same
  have member := List.mem_of_mem_erase there
  obtain rfl := sound.linked.single kind m member n active (same.trans of.symm)
  have nodup : queue.active.Nodup := by
    have all := sound.linked.nodup
    rw [List.nodup_append, List.nodup_append] at all
    exact all.2.1.2.1
  exact (List.Nodup.not_mem_erase nodup) there

theorem not_window (sound : queue.Sound vdevs activating windows)
    (kind : queue.kind = .nonScan) (active : n ∈ queue.active)
    (of : (queue.node n).vdev? = some vdev) : vdev ∉ windows :=
  fun member => (sound.idle kind vdev member).2 n active of

theorem setBit (sound : queue.Sound vdevs activating windows) {blocking : Bool} {bit : Bool}
    (none : bit = false → queue.NoneActive vdev ∧ vdev ∉ windows) :
    ({ queue with
        blockingCmdActive := blocking
        vdevActiveCmd := Function.update queue.vdevActiveCmd vdev bit } : Queue).Sound
      vdevs activating windows := by
  refine ⟨sound.linked.setFlags fun kind m active id of => ?_, sound.marked, sound.once,
    fun kind id member => ⟨?_, (sound.idle kind id member).2⟩, sound.apart⟩
  · by_cases here : id = vdev
    · subst here
      rw [Function.update_self]
      cases bit with
      | true => rfl
      | false => exact absurd of ((none rfl).1 m active)
    · rw [Function.update_of_ne here]
      exact sound.linked.bits kind m active id of
  · by_cases here : id = vdev
    · subst here
      simp only [Function.update_self]
      cases bit with
      | true => rfl
      | false => exact absurd member (none rfl).2
    · simp only [Function.update_of_ne here]
      exact (sound.idle kind id member).1

theorem dequeued (sound : queue.Sound vdevs activating windows)
    (unlists : queue.Unlists n true after) (active : n ∈ queue.active)
    (unmarked : (queue.node n).marks.markedForActivation = false)
    (of : (queue.node n).vdev? = some vdev) :
    ((after.markRemoved n vdev).freeNode n).Sound vdevs activating windows := by
  have left := sound.unlists unlists active fun _ => unmarked
  have loose := sound.linked.loose unlists active
  unfold markRemoved
  split
  · exact left.freeNode loose
  next kind =>
    have before : queue.kind = .nonScan := unlists.kind ▸ kind
    refine (left.setBit fun _ => ⟨?_, ?_⟩).freeNode loose
    · exact sound.noneActive before unlists active of
    · exact sound.not_window before active of

theorem cancelled (sound : queue.Sound vdevs activating windows)
    (unlists : queue.Unlists n true after) (active : n ∈ queue.active)
    (unmarked : (queue.node n).marks.markedForActivation = false)
    (of : (queue.node n).vdev? = some vdev) :
    (after.freeNode n).Sound vdevs activating (vdev :: windows) := by
  refine freeNode ?_ (sound.linked.loose unlists active)
  have left := sound.unlists unlists active fun _ => unmarked
  refine ⟨left.linked, left.marked, left.once, fun kind id member => ?_, fun kind => ?_⟩
  · rw [unlists.kind] at kind
    rcases List.mem_cons.1 member with rfl | member
    · rw [unlists.bits]
      exact ⟨sound.linked.bits kind n active id of,
        sound.noneActive kind unlists active of⟩
    · exact left.idle (unlists.kind.symm ▸ kind) id member
  · rw [unlists.kind] at kind
    exact List.nodup_cons.2 ⟨sound.not_window kind active of, sound.apart kind⟩

theorem settled (sound : queue.Sound vdevs activating (vdev :: windows))
    {blocking : Bool} :
    ({ queue with
        blockingCmdActive := blocking
        vdevActiveCmd := Function.update queue.vdevActiveCmd vdev false } : Queue).Sound
      vdevs activating windows := by
  have less : queue.Sound vdevs activating windows :=
    ⟨sound.linked, sound.marked, sound.once,
      fun kind id member => sound.idle kind id (List.mem_cons_of_mem _ member),
      fun kind => (List.nodup_cons.1 (sound.apart kind)).2⟩
  by_cases kind : queue.kind = .nonScan
  · refine less.setBit fun _ => ⟨?_, ?_⟩
    · exact (sound.idle kind vdev List.mem_cons_self).2
    · exact (List.nodup_cons.1 (sound.apart kind)).1
  · exact ⟨less.linked.setFlags fun nonScan => absurd nonScan kind, less.marked, less.once,
      fun nonScan => absurd nonScan kind, fun nonScan => absurd nonScan kind⟩

theorem lists_markActive {cmd : Command} (lists : queue.Lists n cmd true after) :
    (queue.markActive cmd).Lists n cmd true (after.markActive cmd) := by
  unfold markActive
  rw [lists.kind]
  split
  · exact lists
  · exact ⟨rfl, lists.node, lists.pool, lists.pdev, lists.vdev,
      by simp only [lists.bits], by simp only [lists.blocking], lists.waiting⟩

theorem listed (sound : queue.Sound vdevs activating windows) {cmd : Command}
    (lists : queue.Lists n cmd true after) (loose : queue.Loose n) {ticket : Nat}
    (content : (queue.node n).content = some ⟨ticket, cmd⟩) (member : cmd.vdev ∈ vdevs)
    (unmarked : (queue.node n).marks.markedForActivation = false)
    (clear : queue.kind = .nonScan → queue.vdevActiveCmd cmd.vdev = false) :
    ((after.markActive cmd).setMarks n
      fun marks => { marks with markedForActivation := true }).Sound vdevs
        (n :: activating) windows := by
  have none : queue.kind = .nonScan → queue.NoneActive cmd.vdev := by
    intro kind m active of
    have bit := sound.linked.bits kind m active _ of
    rw [clear kind] at bit
    cases bit
  have flags : queue.markActive cmd = { queue with
      vdevActiveCmd := (queue.markActive cmd).vdevActiveCmd
      blockingCmdActive := (queue.markActive cmd).blockingCmdActive } := by
    unfold markActive
    split <;> rfl
  have bit : queue.kind = .nonScan → (queue.markActive cmd).vdevActiveCmd cmd.vdev = true := by
    intro kind
    simp [markActive, kind]
  have grow : ∀ vdev, queue.vdevActiveCmd vdev = true →
      (queue.markActive cmd).vdevActiveCmd vdev = true := by
    intro vdev set
    unfold markActive
    split
    · exact set
    · by_cases same : vdev = cmd.vdev
      · simp [same]
      · simpa [Function.update_of_ne same] using set
  have ready : (queue.markActive cmd).Linked vdevs := by
    rw [flags]
    exact sound.linked.setFlags fun kind m active id of =>
      grow id (sound.linked.bits kind m active id of)
  have kind : (queue.markActive cmd).kind = queue.kind := by rw [flags]
  have active : (queue.markActive cmd).active = queue.active := by rw [flags]
  have node : (queue.markActive cmd).node = queue.node := by rw [flags]
  have loose' : (queue.markActive cmd).Loose n := by
    rw [flags]
    exact loose
  have last := lists_markActive lists
  have linked : (after.markActive cmd).Linked vdevs := by
    refine ready.lists last loose' (by rw [node]; exact content) member
      (by rw [node]; exact unmarked) (by simp) (fun nonScan _ m there => ?_)
      (fun nonScan _ => bit (kind ▸ nonScan))
    rw [active] at there
    rw [node]
    exact none (kind ▸ nonScan) m there
  have actives : ∀ m, m ∈ (after.markActive cmd).active ↔ m = n ∨ m ∈ queue.active := by
    intro m
    rw [last.active, active, if_pos rfl, mem_place]
  have nodes : ∀ m, m ≠ n → ((after.markActive cmd).setMarks n
      fun marks => { marks with markedForActivation := true }).node m = queue.node m := by
    intro m other
    unfold Queue.setMarks
    rw [setNode_of_ne _ _ _ other, last.node, node]
  have apart : ∀ m ∈ queue.active, m ≠ n := by
    rintro m there rfl
    simp only [Loose, List.mem_append, not_or] at loose
    exact loose.2.2 there
  refine ⟨?_, fun m there => ?_, ?_, fun nonScan vdev there => ?_, fun nonScan => ?_⟩
  · have listed : n ∈ (after.markActive cmd).active := (actives n).2 (.inl rfl)
    refine linked.setNode rfl (linked.not_pool (List.mem_append_right _ listed)) ?_
    intro pending
    have all := linked.nodup
    rw [List.nodup_append, List.nodup_append] at all
    exact absurd rfl (all.2.1.2.2 n pending n listed)
  · rcases List.mem_cons.1 there with rfl | there
    · exact ⟨(actives m).2 (.inl rfl), by simp [Queue.setMarks, Node.setMarks]⟩
    · obtain ⟨there, marked⟩ := sound.marked m there
      refine ⟨(actives m).2 (.inr there), ?_⟩
      rw [nodes m (apart m there)]
      exact marked
  · refine List.nodup_cons.2 ⟨fun there => ?_, sound.once⟩
    exact apart n (sound.marked n there).1 rfl
  · have before : queue.kind = .nonScan := by
      have same := last.kind.trans kind
      exact same ▸ nonScan
    obtain ⟨set, empty⟩ := sound.idle before vdev there
    have other : cmd.vdev ≠ vdev := by
      rintro rfl
      rw [clear before] at set
      cases set
    refine ⟨?_, fun m now => ?_⟩
    · change (after.markActive cmd).vdevActiveCmd vdev = true
      rw [last.bits]
      exact grow vdev set
    · rcases (actives m).1 now with rfl | now
      · unfold Queue.setMarks
        rw [setNode_self]
        simpa [Node.vdev?, Node.setMarks, last.node, node, content] using other
      · rw [nodes m (apart m now)]
        exact empty m now
  · exact sound.apart ((last.kind.trans kind) ▸ nonScan)

theorem promotes (sound : queue.Sound vdevs activating windows) {accepted : Accepted}
    (promotes : queue.Promotes n accepted after)
    (clear : queue.kind = .nonScan → queue.vdevActiveCmd accepted.cmd.vdev = false) :
    after.Sound vdevs (n :: activating) windows := by
  obtain ⟨pending, content, mid, last, unlists, lists, rfl⟩ := promotes
  obtain ⟨accepted', content', member⟩ :=
    sound.linked.filled n (List.mem_append_left _ pending)
  obtain rfl := Option.some.inj (content.symm.trans content')
  have left := sound.unlists unlists pending (by simp)
  have listed := left.listed lists (sound.linked.loose unlists pending)
    (by rw [unlists.node]; exact content) member
    (by rw [unlists.node]; exact sound.linked.unmarked n pending)
    (by rw [unlists.kind, unlists.bits]; exact clear)
  dsimp only
  split
  · exact listed.setFlags
  · exact listed

theorem queued (sound : queue.Sound vdevs activating windows) {cmd : Command}
    (lists : queue.Lists n cmd false after) (loose : queue.Loose n) {ticket : Nat}
    (content : (queue.node n).content = some ⟨ticket, cmd⟩) (member : cmd.vdev ∈ vdevs)
    (unmarked : (queue.node n).marks.markedForActivation = false)
    (new : queue.kind = .nonScan → ∀ m ∈ queue.pending, (queue.node m).key ≠ cmd.key) :
    after.Sound vdevs activating windows := by
  have active : after.active = queue.active := lists.active
  refine ⟨sound.linked.lists lists loose content member unmarked (fun kind _ => new kind)
    (by simp) (by simp), fun m there => ?_, sound.once, fun kind vdev there => ?_,
    fun kind => sound.apart (lists.kind ▸ kind)⟩
  · rw [active, lists.node]
    exact sound.marked m there
  · rw [lists.kind] at kind
    rw [lists.bits]
    refine ⟨(sound.idle kind vdev there).1, fun m now => ?_⟩
    rw [active] at now
    rw [lists.node]
    exact (sound.idle kind vdev there).2 m now

theorem takeNode (sound : queue.Sound vdevs activating windows) {pool : List NodeId}
    (first : queue.pool = n :: pool) (accepted : Accepted) :
    (queue.takeNode n pool accepted).Sound vdevs activating windows := by
  obtain ⟨linked, loose, -⟩ := sound.linked.takeNode first accepted
  have nodes : ∀ m ∈ queue.active,
      (queue.takeNode n pool accepted).node m = queue.node m := by
    intro m there
    refine setNode_of_ne _ _ _ ?_
    rintro rfl
    simp only [Loose, List.mem_append, not_or] at loose
    exact loose.2.2 there
  refine ⟨linked, fun m there => ?_, sound.once, fun kind vdev there => ?_, sound.apart⟩
  · obtain ⟨active, marked⟩ := sound.marked m there
    refine ⟨active, ?_⟩
    rw [nodes m active]
    exact marked
  · obtain ⟨bit, none⟩ := sound.idle kind vdev there
    refine ⟨bit, fun m now => ?_⟩
    rw [nodes m now]
    exact none m now

theorem disableFor (sound : queue.Sound vdevs activating windows) (cmd : Command) :
    (queue.disableFor cmd).Sound vdevs activating windows := by
  obtain ⟨disable, same⟩ := disableFor_eq queue cmd
  rw [same]
  exact sound.setFlags

theorem counted (sound : queue.Sound vdevs activating windows) (cmd : Command) :
    (queue.counted cmd).Sound vdevs activating windows := by
  obtain ⟨waiting, same⟩ := counted_eq queue cmd
  rw [same]
  exact sound.setFlags

end Sound

theorem admitted_nonScan {lookups : Lookups} {cmd : Command}
    (admits : queue.admits lookups cmd = true) (kind : queue.kind = .nonScan) :
    (cmd.isBlocking = true → queue.anyVdevCmdActive = false) ∧
      (cmd.isBlocking = false →
        queue.blockingCmdActive = false ∧ queue.vdevActiveCmd cmd.vdev = false) := by
  unfold Queue.admits isActiveCmdAllowed at admits
  simp only [kind, Bool.and_eq_true] at admits
  obtain ⟨allowed, -⟩ := admits
  unfold isActiveNonScanCmdAllowed at allowed
  refine ⟨fun blocking => ?_, fun blocking => ?_⟩
  · rw [blocking] at allowed
    by_contra set
    have busy : queue.anyVdevCmdActive = true := by simpa using set
    simp [busy] at allowed
  · rw [blocking] at allowed
    simp only [Bool.false_eq_true, if_false] at allowed
    split at allowed
    · cases allowed
    next free =>
      simp only [Bool.or_eq_true, not_or, Bool.not_eq_true] at free
      exact ⟨free.1, by simpa using allowed⟩

theorem clear_of_admits {lookups : Lookups} {cmd : Command}
    (admits : queue.admits lookups cmd = true) (kind : queue.kind = .nonScan) :
    queue.vdevActiveCmd cmd.vdev = false := by
  obtain ⟨alone, free⟩ := admitted_nonScan admits kind
  cases blocking : cmd.isBlocking with
  | true =>
    have none := of_decide_eq_false (alone blocking)
    by_contra set
    exact none ⟨cmd.vdev, by simpa using set⟩
  | false => exact (free blocking).2

theorem Sound.enqueued (sound : queue.Sound vdevs activating windows) {lookups : Lookups}
    {accepted : Accepted} {status : Status} {taken : Option NodeId}
    (member : accepted.cmd.vdev ∈ vdevs)
    (enqueued : queue.Enqueued lookups accepted status taken after) :
    after.Sound vdevs (taken.toList ++ activating) windows := by
  cases enqueued with
  | refused => exact sound
  | turnedAway => exact sound.counted _
  | @full n pool takes new first full =>
    have pool' : (queue.counted accepted.cmd).pool = n :: pool := by
      obtain ⟨waiting, same⟩ := counted_eq queue accepted.cmd
      rw [same]
      exact first
    have taken := (sound.counted accepted.cmd).takeNode pool' accepted
    obtain ⟨-, loose, -⟩ := (sound.counted accepted.cmd).linked.takeNode pool' accepted
    split
    · refine (taken.disableFor accepted.cmd).freeNode ?_
      obtain ⟨disable, same⟩ := disableFor_eq
        ((queue.counted accepted.cmd).takeNode n pool accepted) accepted.cmd
      rw [same]
      exact loose
    · exact taken.freeNode loose
  | @pending n pool _ takes new first admits _ lists =>
    have pool' : (queue.counted accepted.cmd).pool = n :: pool := by
      obtain ⟨waiting, same⟩ := counted_eq queue accepted.cmd
      rw [same]
      exact first
    obtain ⟨-, loose, node⟩ := (sound.counted accepted.cmd).linked.takeNode pool' accepted
    have content : (((queue.counted accepted.cmd).takeNode n pool accepted).node
        n).content = some ⟨accepted.ticket, accepted.cmd⟩ := by rw [node]
    have fresh : queue.kind = .nonScan →
        ∀ m ∈ queue.vdevList false accepted.cmd.vdev, (queue.node m).key ≠ accepted.cmd.key :=
      fun kind => admits ▸ not_on_vdevList kind takes new
    refine ((sound.counted accepted.cmd).takeNode pool' accepted).queued lists loose
      content member (by rw [node]) ?_
    obtain ⟨waiting, same⟩ := counted_takeNode queue accepted.cmd n pool accepted
    rw [same]
    intro kind m pending sameKey
    have other : m ≠ n := by
      rintro rfl
      refine sound.linked.not_pool (List.mem_append_left _ pending) ?_
      simp [first]
    have kept : (queue.takeNode n pool accepted).node m = queue.node m :=
      setNode_of_ne _ _ _ other
    have sameKey : (queue.node m).key = accepted.cmd.key := by
      rw [← kept]
      exact sameKey
    have of : (queue.node m).vdev? = some accepted.cmd.vdev :=
      key_vdev (by rw [sameKey]; rfl)
    refine fresh kind m ?_ sameKey
    rw [sound.linked.ofVdev kind]
    exact List.mem_filter.2 ⟨pending, by simp [isOn, of]⟩
  | @active n pool _ takes new first admits _ lists =>
    have pool' : (queue.counted accepted.cmd).pool = n :: pool := by
      obtain ⟨waiting, same⟩ := counted_eq queue accepted.cmd
      rw [same]
      exact first
    obtain ⟨-, loose, node⟩ := (sound.counted accepted.cmd).linked.takeNode pool' accepted
    have content : (((queue.counted accepted.cmd).takeNode n pool accepted).node
        n).content = some ⟨accepted.ticket, accepted.cmd⟩ := by rw [node]
    have clear : queue.kind = .nonScan → queue.vdevActiveCmd accepted.cmd.vdev = false :=
      clear_of_admits admits
    refine ((sound.counted accepted.cmd).takeNode pool' accepted).listed lists loose
      content member (by rw [node]) ?_
    obtain ⟨waiting, same⟩ := counted_takeNode queue accepted.cmd n pool accepted
    rw [same]
    exact clear

end Queue

end VendorModules.Ser
