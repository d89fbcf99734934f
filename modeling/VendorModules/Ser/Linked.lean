import VendorModules.Ser.Steps
import Mathlib.Data.Finset.Card
import Mathlib.Data.List.Perm.Basic

namespace VendorModules.Ser

namespace Queue

variable {queue : Queue} {vdevs : Finset VdevId} {n : NodeId} {cmd : Command}

def isOn (queue : Queue) (vdev : VdevId) (n : NodeId) : Bool :=
  (queue.node n).vdev? == some vdev

/-- The lists share no node, free nodes are zeroed, a vdev's lists are the pdev's less the
other vdevs' commands, and the bits cover the active commands. -/
structure Linked (vdevs : Finset VdevId) (queue : Queue) : Prop where
  nodup : (queue.pool ++ (queue.pending ++ queue.active)).Nodup
  free : ∀ n ∈ queue.pool, queue.node n = {}
  filled : ∀ n ∈ queue.pending ++ queue.active,
    ∃ accepted, (queue.node n).content = some accepted ∧ accepted.cmd.vdev ∈ vdevs
  unmarked : ∀ n ∈ queue.pending, (queue.node n).marks.markedForActivation = false
  keys : queue.kind = .nonScan →
    ∀ n ∈ queue.pending, ∀ m ∈ queue.pending,
      (queue.node n).key = (queue.node m).key → n = m
  ofVdev : queue.kind = .nonScan → ∀ isActive vdev,
    queue.vdevList isActive vdev =
      (queue.pdevList isActive).filter (queue.isOn vdev)
  single : queue.kind = .nonScan →
    ∀ n ∈ queue.active, ∀ m ∈ queue.active,
      (queue.node n).vdev? = (queue.node m).vdev? → n = m
  bits : queue.kind = .nonScan → ∀ n ∈ queue.active, ∀ vdev,
    (queue.node n).vdev? = some vdev → queue.vdevActiveCmd vdev = true

theorem Linked.nodup_pdevList (linked : queue.Linked vdevs) (isActive : Bool) :
    (queue.pdevList isActive).Nodup := by
  have all := linked.nodup
  rw [List.nodup_append, List.nodup_append] at all
  cases isActive with
  | true => exact all.2.1.2.1
  | false => exact all.2.1.1

theorem filter_isOn_erase {list : List NodeId} (nodup : list.Nodup) (id : VdevId) :
    (list.erase n).filter (queue.isOn id) =
      if (queue.node n).vdev? = some id then (list.filter (queue.isOn id)).erase n
      else list.filter (queue.isOn id) := by
  rw [nodup.erase_eq_filter, List.filter_filter]
  by_cases here : (queue.node n).vdev? = some id
  · rw [if_pos here, (nodup.filter _).erase_eq_filter, List.filter_filter]
    refine List.filter_congr fun m _ => ?_
    exact Bool.and_comm _ _
  · rw [if_neg here]
    refine List.filter_congr fun m _ => ?_
    by_cases this : m = n
    · subst this
      simp [isOn, here]
    · simp [this]

theorem mem_place {list : List NodeId} {m : NodeId} :
    m ∈ place cmd n list ↔ m = n ∨ m ∈ list := by
  unfold place
  split <;> simp [or_comm]

theorem place_perm (cmd : Command) (n : NodeId) (list : List NodeId) :
    (place cmd n list).Perm (n :: list) := by
  unfold place
  split
  · exact .refl _
  · exact List.perm_append_singleton n list

theorem filter_place (cmd : Command) (n : NodeId) (list : List NodeId)
    (keep : NodeId → Bool) :
    (place cmd n list).filter keep =
      if keep n then place cmd n (list.filter keep) else list.filter keep := by
  unfold place
  split <;> cases kept : keep n <;> simp [kept]

theorem erase_place {list : List NodeId} (fresh : n ∉ list) (cmd : Command) :
    (place cmd n list).erase n = list := by
  unfold place
  split
  · simp
  · rw [List.erase_append_right _ fresh]
    simp

theorem Linked.setNode (linked : queue.Linked vdevs) {node : Node}
    (same : node.content = (queue.node n).content) (used : n ∉ queue.pool)
    (unmarked : n ∈ queue.pending → node.marks.markedForActivation = false) :
    (queue.setNode n node).Linked vdevs := by
  have content : ∀ m, ((queue.setNode n node).node m).content = (queue.node m).content :=
    fun m => setNode_content same
  have key : ∀ m, ((queue.setNode n node).node m).key = (queue.node m).key := by
    intro m
    simp only [Node.key, content]
  have vdev : ∀ m, ((queue.setNode n node).node m).vdev? = (queue.node m).vdev? := by
    intro m
    simp only [Node.vdev?, content]
  have on : ∀ vdev, (queue.setNode n node).isOn vdev = queue.isOn vdev := by
    intro id
    funext m
    simp only [isOn, vdev]
  refine ⟨linked.nodup, fun m member => ?_, fun m member => ?_, fun m member => ?_,
    fun kind m member other => ?_, fun kind isActive id => ?_,
    fun kind m member other => ?_, fun kind m member id => ?_⟩
  · have other : m ≠ n := fun same => used (same ▸ member)
    rw [setNode_of_ne _ _ _ other]
    exact linked.free m member
  · rw [content]
    exact linked.filled m member
  · by_cases here : m = n
    · subst here
      simpa using unmarked member
    · rw [setNode_of_ne _ _ _ here]
      exact linked.unmarked m member
  · rw [key, key]
    exact linked.keys kind m member other
  · rw [on]
    exact linked.ofVdev kind isActive id
  · rw [vdev, vdev]
    exact linked.single kind m member other
  · rw [vdev]
    exact linked.bits kind m member id

def Loose (queue : Queue) (n : NodeId) : Prop :=
  n ∉ queue.pool ++ (queue.pending ++ queue.active)

theorem Loose.freeNode_node (loose : queue.Loose n) {m : NodeId}
    (listed : m ∈ queue.pool ++ (queue.pending ++ queue.active)) :
    (queue.freeNode n).node m = queue.node m :=
  setNode_of_ne _ _ _ fun same => loose (same ▸ listed)

theorem Linked.setNode_loose (linked : queue.Linked vdevs) (loose : queue.Loose n)
    (node : Node) : (queue.setNode n node).Linked vdevs := by
  simp only [Loose, List.mem_append, not_or] at loose
  obtain ⟨notPool, notPending, notActive⟩ := loose
  have inPool : ∀ m ∈ queue.pool, (queue.setNode n node).node m = queue.node m :=
    fun m member => setNode_of_ne _ _ _ fun same => notPool (same ▸ member)
  have inPending : ∀ m ∈ queue.pending, (queue.setNode n node).node m = queue.node m :=
    fun m member => setNode_of_ne _ _ _ fun same => notPending (same ▸ member)
  have inActive : ∀ m ∈ queue.active, (queue.setNode n node).node m = queue.node m :=
    fun m member => setNode_of_ne _ _ _ fun same => notActive (same ▸ member)
  have inBoth : ∀ isActive, ∀ m ∈ queue.pdevList isActive,
      (queue.setNode n node).node m = queue.node m := by
    intro isActive m member
    cases isActive with
    | true => exact inActive m member
    | false => exact inPending m member
  refine ⟨linked.nodup, fun m member => ?_, fun m member => ?_, fun m member => ?_,
    fun kind m member other there => ?_, fun kind isActive id => ?_,
    fun kind m member other there => ?_, fun kind m member id => ?_⟩
  · rw [inPool m member]
    exact linked.free m member
  · have same : (queue.setNode n node).node m = queue.node m := by
      rcases List.mem_append.1 member with member | member
      · exact inPending m member
      · exact inActive m member
    rw [same]
    exact linked.filled m member
  · rw [inPending m member]
    exact linked.unmarked m member
  · rw [inPending m member, inPending other there]
    exact linked.keys kind m member other there
  · have kept := linked.ofVdev kind isActive id
    simp only [setNode_vdevList, setNode_pdevList]
    rw [kept]
    refine List.filter_congr fun m member => ?_
    simp only [isOn, inBoth isActive m member]
  · rw [inActive m member, inActive other there]
    exact linked.single kind m member other there
  · rw [inActive m member]
    exact linked.bits kind m member id

theorem Linked.setFlags (linked : queue.Linked vdevs) {bits disable : VdevId → Bool}
    {blocking : Bool} {waiting : UInt16}
    (cover : queue.kind = .nonScan → ∀ n ∈ queue.active, ∀ vdev,
      (queue.node n).vdev? = some vdev → bits vdev = true) :
    ({ queue with
        vdevActiveCmd := bits
        queueDisable := disable
        blockingCmdActive := blocking
        blockingCmdWaiting := waiting } : Queue).Linked vdevs :=
  ⟨linked.nodup, linked.free, linked.filled, linked.unmarked, linked.keys, linked.ofVdev,
    linked.single, cover⟩

structure Lists (queue : Queue) (n : NodeId) (cmd : Command) (isActive : Bool)
    (after : Queue) : Prop where
  kind : after.kind = queue.kind
  node : after.node = queue.node
  pool : after.pool = queue.pool
  pdev : ∀ other, after.pdevList other =
    if other = isActive then place cmd n (queue.pdevList other)
    else queue.pdevList other
  vdev : queue.kind = .nonScan → ∀ other vdev, after.vdevList other vdev =
    if other = isActive ∧ vdev = cmd.vdev then place cmd n (queue.vdevList other vdev)
    else queue.vdevList other vdev
  bits : after.vdevActiveCmd = queue.vdevActiveCmd
  blocking : after.blockingCmdActive = queue.blockingCmdActive
  waiting : after.blockingCmdWaiting = queue.blockingCmdWaiting

structure Unlists (queue : Queue) (n : NodeId) (isActive : Bool) (after : Queue) :
    Prop where
  kind : after.kind = queue.kind
  node : after.node = queue.node
  pool : after.pool = queue.pool
  pdev : ∀ other, after.pdevList other =
    if other = isActive then (queue.pdevList other).erase n else queue.pdevList other
  vdev : queue.kind = .nonScan → ∀ other vdev, after.vdevList other vdev =
    if other = isActive ∧ (queue.node n).vdev? = some vdev then
      (queue.vdevList other vdev).erase n
    else queue.vdevList other vdev
  bits : after.vdevActiveCmd = queue.vdevActiveCmd
  blocking : after.blockingCmdActive = queue.blockingCmdActive
  waiting : after.blockingCmdWaiting = queue.blockingCmdWaiting
  disable : after.queueDisable = queue.queueDisable

section Lists

variable {isActive : Bool} {after : Queue}

theorem Lists.pending (lists : queue.Lists n cmd isActive after) : after.pending =
    if isActive then queue.pending else place cmd n queue.pending := by
  cases isActive <;> exact lists.pdev false

theorem Lists.active (lists : queue.Lists n cmd isActive after) : after.active =
    if isActive then place cmd n queue.active else queue.active := by
  cases isActive <;> exact lists.pdev true

theorem Unlists.pending (unlists : queue.Unlists n isActive after) : after.pending =
    if isActive then queue.pending else queue.pending.erase n := by
  cases isActive <;> exact unlists.pdev false

theorem Unlists.active (unlists : queue.Unlists n isActive after) : after.active =
    if isActive then queue.active.erase n else queue.active := by
  cases isActive <;> exact unlists.pdev true

theorem Lists.perm (lists : queue.Lists n cmd isActive after) :
    (after.pool ++ (after.pending ++ after.active)).Perm
      (n :: (queue.pool ++ (queue.pending ++ queue.active))) := by
  rw [lists.pool, lists.pending, lists.active]
  cases isActive with
  | true =>
    refine (((place_perm cmd n queue.active).append_left _).append_left _).trans ?_
    exact ((List.perm_middle.append_left _).trans List.perm_middle)
  | false =>
    refine (((place_perm cmd n queue.pending).append_right _).append_left _).trans ?_
    exact List.perm_middle

theorem Linked.lists (linked : queue.Linked vdevs)
    (lists : queue.Lists n cmd isActive after) (loose : queue.Loose n)
    {ticket : Nat} (content : (queue.node n).content = some ⟨ticket, cmd⟩)
    (member : cmd.vdev ∈ vdevs)
    (unmarked : (queue.node n).marks.markedForActivation = false)
    (new : queue.kind = .nonScan → isActive = false →
      ∀ m ∈ queue.pending, (queue.node m).key ≠ cmd.key)
    (idle : queue.kind = .nonScan → isActive = true →
      ∀ m ∈ queue.active, (queue.node m).vdev? ≠ some cmd.vdev)
    (bit : queue.kind = .nonScan → isActive = true →
      queue.vdevActiveCmd cmd.vdev = true) : after.Linked vdevs := by
  have key : (queue.node n).key = cmd.key := by simp [Node.key, content]
  have vdev : (queue.node n).vdev? = some cmd.vdev := by simp [Node.vdev?, content]
  have on : ∀ id, after.isOn id = queue.isOn id := by
    intro id
    funext m
    simp only [isOn, lists.node]
  refine ⟨?_, ?_, ?_, ?_, ?_, ?_, ?_, ?_⟩
  · exact lists.perm.nodup_iff.2 (List.nodup_cons.2 ⟨loose, linked.nodup⟩)
  · rw [lists.pool, lists.node]
    exact linked.free
  · intro m listed
    rw [lists.node]
    have there : m = n ∨ m ∈ queue.pending ++ queue.active := by
      rw [lists.pending, lists.active] at listed
      cases isActive with
      | true =>
        simp only [if_true, List.mem_append, mem_place] at listed ⊢
        tauto
      | false =>
        simp only [Bool.false_eq_true, if_false, List.mem_append, mem_place] at listed ⊢
        tauto
    rcases there with rfl | there
    · exact ⟨_, content, member⟩
    · exact linked.filled m there
  · intro m listed
    rw [lists.node]
    rw [lists.pending] at listed
    cases isActive with
    | true => exact linked.unmarked m listed
    | false =>
      rcases mem_place.1 listed with rfl | listed
      · exact unmarked
      · exact linked.unmarked m listed
  · intro kind m listed other there same
    rw [lists.kind] at kind
    rw [lists.node] at same
    rw [lists.pending] at listed there
    cases isActive with
    | true => exact linked.keys kind m listed other there same
    | false =>
      have fresh := new kind rfl
      rcases mem_place.1 listed with rfl | first <;>
        rcases mem_place.1 there with rfl | second
      · rfl
      · exact absurd (same.symm.trans key) (fresh other second)
      · exact absurd (same.trans key) (fresh m first)
      · exact linked.keys kind m first other second same
  · intro kind other id
    rw [lists.kind] at kind
    rw [lists.vdev kind, lists.pdev, on, linked.ofVdev kind]
    by_cases same : other = isActive
    · rw [if_pos same, filter_place]
      have here : queue.isOn id n = decide (id = cmd.vdev) := by
        simp only [isOn, vdev]
        by_cases same : id = cmd.vdev
        · simp [same]
        · simp [same, Ne.symm same]
      simp [same, here]
    · simp [same]
  · intro kind m listed other there same
    rw [lists.kind] at kind
    rw [lists.node] at same
    rw [lists.active] at listed there
    cases isActive with
    | false => exact linked.single kind m listed other there same
    | true =>
      have free := idle kind rfl
      rcases mem_place.1 listed with rfl | first <;>
        rcases mem_place.1 there with rfl | second
      · rfl
      · exact absurd (same.symm.trans vdev) (free other second)
      · exact absurd (same.trans vdev) (free m first)
      · exact linked.single kind m first other second same
  · intro kind m listed id
    rw [lists.kind] at kind
    rw [lists.node, lists.bits]
    rw [lists.active] at listed
    cases isActive with
    | false => exact linked.bits kind m listed id
    | true =>
      rcases mem_place.1 listed with rfl | listed
      · intro same
        obtain rfl := Option.some.inj (vdev.symm.trans same)
        exact bit kind rfl
      · exact linked.bits kind m listed id

theorem Unlists.perm (unlists : queue.Unlists n isActive after)
    (listed : n ∈ queue.pdevList isActive) :
    (queue.pool ++ (queue.pending ++ queue.active)).Perm
      (n :: (after.pool ++ (after.pending ++ after.active))) := by
  rw [unlists.pool, unlists.pending, unlists.active]
  cases isActive with
  | true =>
    refine (((List.perm_cons_erase listed).append_left _).append_left _).trans ?_
    exact ((List.perm_middle.append_left _).trans List.perm_middle)
  | false =>
    refine (((List.perm_cons_erase listed).append_right _).append_left _).trans ?_
    exact List.perm_middle

theorem Linked.loose (linked : queue.Linked vdevs)
    (unlists : queue.Unlists n isActive after) (listed : n ∈ queue.pdevList isActive) :
    after.Loose n :=
  (List.nodup_cons.1 ((unlists.perm listed).nodup_iff.1 linked.nodup)).1

theorem Linked.unlists (linked : queue.Linked vdevs)
    (unlists : queue.Unlists n isActive after) (listed : n ∈ queue.pdevList isActive) :
    after.Linked vdevs := by
  have pending : ∀ m ∈ after.pending, m ∈ queue.pending := by
    intro m there
    rw [unlists.pending] at there
    cases isActive with
    | true => exact there
    | false => exact List.mem_of_mem_erase there
  have active : ∀ m ∈ after.active, m ∈ queue.active := by
    intro m there
    rw [unlists.active] at there
    cases isActive with
    | true => exact List.mem_of_mem_erase there
    | false => exact there
  have on : ∀ id, after.isOn id = queue.isOn id := by
    intro id
    funext m
    simp only [isOn, unlists.node]
  refine ⟨?_, ?_, ?_, ?_, ?_, ?_, ?_, ?_⟩
  · exact (List.nodup_cons.1 ((unlists.perm listed).nodup_iff.1 linked.nodup)).2
  · rw [unlists.pool, unlists.node]
    exact linked.free
  · intro m there
    rw [unlists.node]
    refine linked.filled m ?_
    rcases List.mem_append.1 there with there | there
    · exact List.mem_append_left _ (pending m there)
    · exact List.mem_append_right _ (active m there)
  · intro m there
    rw [unlists.node]
    exact linked.unmarked m (pending m there)
  · intro kind m there other third
    rw [unlists.kind] at kind
    rw [unlists.node]
    exact linked.keys kind m (pending m there) other (pending other third)
  · intro kind other id
    rw [unlists.kind] at kind
    rw [unlists.vdev kind, unlists.pdev, on, linked.ofVdev kind]
    by_cases same : other = isActive
    · subst same
      rw [if_pos rfl, filter_isOn_erase (linked.nodup_pdevList other)]
      simp only [true_and]
    · simp [same]
  · intro kind m there other third
    rw [unlists.kind] at kind
    rw [unlists.node]
    exact linked.single kind m (active m there) other (active other third)
  · intro kind m there id
    rw [unlists.kind] at kind
    rw [unlists.node, unlists.bits]
    exact linked.bits kind m (active m there) id

end Lists

theorem Linked.freeNode (linked : queue.Linked vdevs) (loose : queue.Loose n) :
    (queue.freeNode n).Linked vdevs := by
  have zeroed := linked.setNode_loose loose {}
  refine ⟨?_, ?_, zeroed.filled, zeroed.unmarked, zeroed.keys, zeroed.ofVdev,
    zeroed.single, zeroed.bits⟩
  · have perm : (queue.pool ++ [n] ++ (queue.pending ++ queue.active)).Perm
        (n :: (queue.pool ++ (queue.pending ++ queue.active))) := by
      rw [List.append_assoc]
      exact List.perm_middle
    exact perm.nodup_iff.2 (List.nodup_cons.2 ⟨loose, linked.nodup⟩)
  · intro m member
    rcases List.mem_append.1 member with member | member
    · exact zeroed.free m member
    · rw [List.mem_singleton.1 member]
      exact setNode_self queue n {}

end Queue

end VendorModules.Ser
