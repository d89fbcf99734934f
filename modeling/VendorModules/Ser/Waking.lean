import VendorModules.Ser.Waiting

namespace VendorModules.Ser

def Node.isHighPriority (node : Node) : Bool :=
  node.content.any fun accepted => accepted.cmd.isHighPriority

def Frame.Wakes (queue : Queue) (n : NodeId) : Frame → Prop
  | .movePending vdev removed =>
    removed = true ∨ (∃ b ∈ queue.pending, (queue.node b).isBlocking = true) ∨
      (queue.node n).vdev? = some vdev
  | .moveNext lookup => lookup = none
  | .cancelEnd => True
  | .cancelNotify _ cancelling => cancelling.isActive = true
  | .cancelResume _ cancelling => cancelling.isActive = true
  | _ => False

namespace Queue

variable {queue after : Queue} {vdevs : Finset VdevId} {n : NodeId} {frames : List Frame}

/-- A pending command may wait: its vdev or a blocking command is active, or some vdev is and a
blocking command waits at or before it. -/
inductive MayWait (queue : Queue) (n : NodeId) : Prop
  | busy (bit : (queue.node n).vdev?.any queue.vdevActiveCmd = true)
  | blocked (flag : queue.blockingCmdActive = true)
  | behind {b : NodeId} (active : queue.anyVdevCmdActive = true) (pending : b ∈ queue.pending)
      (blocks : (queue.node b).isBlocking = true)
      (order : b = n ∨ [b, n].Sublist queue.pending ∨ (queue.node n).isHighPriority = true)

def Held (queue : Queue) (frames : List Frame) (n : NodeId) : Prop :=
  queue.MayWait n ∨ ∃ frame ∈ frames, frame.Wakes queue n

def Awaited (queue : Queue) (frames : List Frame) : Prop :=
  ∀ n ∈ queue.pending, queue.Held frames n

/-- The blocking commands that are pending still are, and come before the command if they
did. -/
structure Carries (queue after : Queue) (n : NodeId) : Prop where
  content : (after.node n).content = (queue.node n).content
  pending : ∀ b ∈ queue.pending, (queue.node b).isBlocking = true →
    b ∈ after.pending ∧ (after.node b).isBlocking = true ∧
      ([b, n].Sublist queue.pending → [b, n].Sublist after.pending)

structure Grows (queue after : Queue) (n : NodeId) : Prop extends queue.Carries after n where
  bits : ∀ vdev, queue.vdevActiveCmd vdev = true → after.vdevActiveCmd vdev = true
  flag : queue.blockingCmdActive = true → after.blockingCmdActive = true

theorem any_mono {vdev? : Option VdevId} {bits bits' : VdevId → Bool}
    (wider : ∀ vdev, bits vdev = true → bits' vdev = true) (any : vdev?.any bits = true) :
    vdev?.any bits' = true := by
  cases vdev? with
  | none => cases any
  | some vdev => exact wider vdev any

theorem Grows.mayWait (grows : queue.Grows after n) (mayWait : queue.MayWait n) :
    after.MayWait n := by
  cases mayWait with
  | busy bit =>
    refine .busy ?_
    rw [Node.vdev?_congr grows.content]
    exact any_mono grows.bits bit
  | blocked flag => exact .blocked (grows.flag flag)
  | @behind b active pending blocks order =>
    obtain ⟨there, blocks', order'⟩ := grows.pending b pending blocks
    refine .behind ?_ there blocks' (order.imp_right fun order => order.imp order' fun high => ?_)
    · obtain ⟨vdev, bit⟩ := of_decide_eq_true active
      exact decide_eq_true ⟨vdev, grows.bits vdev bit⟩
    · unfold Node.isHighPriority at high ⊢
      rw [grows.content]
      exact high

theorem Carries.wakes (carries : queue.Carries after n) {frame : Frame}
    (wakes : frame.Wakes queue n) : frame.Wakes after n := by
  cases frame with
  | movePending vdev removed =>
    rcases wakes with removed | ⟨b, there, blocks⟩ | of
    · exact .inl removed
    · obtain ⟨there, blocks, -⟩ := carries.pending b there blocks
      exact .inr (.inl ⟨b, there, blocks⟩)
    · refine .inr (.inr ?_)
      rw [Node.vdev?_congr carries.content]
      exact of
  | _ => exact wakes

theorem Grows.held (grows : queue.Grows after n) {frames' : List Frame}
    (held : queue.Held frames n)
    (stays : ∀ frame ∈ frames, frame.Wakes queue n → frame ∈ frames' ∨ after.Held frames' n) :
    after.Held frames' n := by
  rcases held with mayWait | ⟨frame, member, wakes⟩
  · exact .inl (grows.mayWait mayWait)
  · rcases stays frame member wakes with stays | held
    · exact .inr ⟨frame, stays, grows.wakes wakes⟩
    · exact held

theorem Grows.of_same (pending : after.pending = queue.pending)
    (content : ∀ m ∈ queue.pending, (after.node m).content = (queue.node m).content)
    (bits : after.vdevActiveCmd = queue.vdevActiveCmd)
    (flag : after.blockingCmdActive = queue.blockingCmdActive) (there : n ∈ queue.pending) :
    queue.Grows after n := by
  refine ⟨⟨content n there, fun b member blocks => ?_⟩, fun vdev bit => bits ▸ bit,
    fun set => flag ▸ set⟩
  rw [pending]
  exact ⟨member, (Node.isBlocking_congr (content b member)).trans blocks, id⟩

theorem grows_setNode {m : NodeId} {node : Node} (content : node.content = (queue.node m).content)
    (there : n ∈ queue.pending) : queue.Grows (queue.setNode m node) n :=
  .of_same rfl (fun _ _ => setNode_content content) rfl rfl there

theorem Remarked.grows (remarked : queue.Remarked after) (there : n ∈ queue.pending) :
    queue.Grows after n :=
  .of_same remarked.pending (fun m _ => remarked.content m) remarked.bits
    (by rw [remarked.rest]) there

theorem sublist_erase {list : List NodeId} {b m : NodeId} (before : [b, n].Sublist list)
    (first : b ≠ m) (second : n ≠ m) : [b, n].Sublist (list.erase m) := by
  have kept := before.erase m
  rwa [List.erase_of_not_mem (by simp [first.symm, second.symm])] at kept

theorem Linked.nodup_pending (linked : queue.Linked vdevs) : queue.pending.Nodup := by
  have all := linked.nodup
  rw [List.nodup_append, List.nodup_append] at all
  exact all.2.1.1

theorem Unlists.grows {m : NodeId} (unlists : queue.Unlists m false after)
    (quiet : (queue.node m).isBlocking = false) (other : n ≠ m) : queue.Grows after n := by
  refine ⟨⟨by rw [unlists.node], fun b member blocks => ?_⟩,
    fun vdev bit => unlists.bits ▸ bit, fun flag => unlists.blocking ▸ flag⟩
  have differs : b ≠ m := by
    rintro rfl
    rw [quiet] at blocks
    cases blocks
  rw [unlists.pending, unlists.node, if_neg Bool.false_ne_true]
  exact ⟨(List.mem_erase_of_ne differs).2 member, blocks,
    fun order => sublist_erase order differs other⟩

theorem Grows.trans {mid : Queue} (first : queue.Grows mid n) (second : mid.Grows after n) :
    queue.Grows after n := by
  refine ⟨⟨second.content.trans first.content, fun b member blocks => ?_⟩,
    fun vdev bit => second.bits vdev (first.bits vdev bit),
    fun flag => second.flag (first.flag flag)⟩
  obtain ⟨there, blocks', order⟩ := first.pending b member blocks
  obtain ⟨last, blocks'', order'⟩ := second.pending b there blocks'
  exact ⟨last, blocks'', fun before => order' (order before)⟩

theorem grows_freeNode {m : NodeId} (loose : queue.Loose m) (there : n ∈ queue.pending) :
    queue.Grows (queue.freeNode m) n := by
  refine .of_same rfl (fun other member => ?_) rfl rfl there
  rw [loose.freeNode_node (List.mem_append_right _ (List.mem_append_left _ member))]

theorem Promotes.effect {m : NodeId} {accepted : Accepted} (kind : queue.kind = .nonScan)
    (promotes : queue.Promotes m accepted after) :
    after.pending = queue.pending.erase m ∧ after.active.Perm (m :: queue.active) ∧
      (∀ other, (after.node other).content = (queue.node other).content) ∧
        after.vdevActiveCmd = Function.update queue.vdevActiveCmd accepted.cmd.vdev true ∧
          after.blockingCmdActive = (queue.blockingCmdActive || accepted.cmd.isBlocking) := by
  obtain ⟨-, -, mid, last, unlists, lists, rfl⟩ := promotes
  obtain ⟨pending, active, contents, bits, blocking⟩ :=
    lists.effect (unlists.kind.trans kind)
  rw [unlists.pending, if_neg Bool.false_ne_true] at pending
  rw [unlists.active, if_neg Bool.false_ne_true] at active
  rw [unlists.node] at contents
  rw [unlists.bits] at bits
  rw [unlists.blocking] at blocking
  dsimp only
  split <;> exact ⟨pending, active, contents, bits, blocking⟩

theorem Promotes.grows {m : NodeId} {accepted : Accepted} (kind : queue.kind = .nonScan)
    (promotes : queue.Promotes m accepted after) (quiet : (queue.node m).isBlocking = false)
    (other : n ≠ m) : queue.Grows after n := by
  obtain ⟨pending, -, content, bits, flag⟩ := promotes.effect kind
  refine ⟨⟨content n, fun b member blocks => ?_⟩, fun vdev bit => ?_, fun set => ?_⟩
  · have differs : b ≠ m := by
      rintro rfl
      rw [quiet] at blocks
      cases blocks
    rw [pending]
    exact ⟨(List.mem_erase_of_ne differs).2 member,
      (Node.isBlocking_congr (content b)).trans blocks,
      fun order => sublist_erase order differs other⟩
  · rw [bits]
    by_cases here : vdev = accepted.cmd.vdev
    · simp [here]
    · rwa [Function.update_of_ne here]
  · rw [flag, set]
    rfl

def CountsWaiting (queue : Queue) : Prop :=
  queue.blockingCmdWaiting = 0 ↔ ∀ b ∈ queue.pending, (queue.node b).isBlocking = false

theorem Waits.countsWaiting (waits : queue.Waits 0)
    (nodes : queue.nodes.Perm (List.range (size queue.kind))) : queue.CountsWaiting := by
  have small : size queue.kind < UInt16.size := by cases queue.kind <;> decide
  have bound := (blockingPending_le nodes).trans_lt small
  have zero : queue.blockingCmdWaiting = 0 ↔ queue.blockingPending = 0 := by
    rw [waits, Nat.add_zero, ← UInt16.toNat_inj, UInt16.toNat_ofNat_of_lt' bound]
    rfl
  unfold CountsWaiting
  rw [zero]
  unfold blockingPending
  rw [List.countP_eq_zero]
  simp

theorem CountsWaiting.looks (counts : queue.CountsWaiting) {frame : Frame}
    {lookup : Option VdevId} (looks : frame.Looks queue lookup)
    (wakes : frame.Wakes queue n) :
    ∀ vdev ∈ lookup, (queue.node n).vdev? = some vdev := by
  cases frame with
  | movePending id removed =>
    obtain rfl := looks
    intro vdev own
    unfold vdevLookup at own
    split at own
    next direct =>
      obtain rfl := Option.some.inj own
      simp only [Bool.and_eq_true, Bool.not_eq_true', beq_iff_eq] at direct
      rcases wakes with removed | ⟨b, there, blocks⟩ | of
      · rw [direct.1] at removed
        cases removed
      · rw [counts.1 direct.2 b there] at blocks
        cases blocks
      · exact of
    · cases own
  | moveNext _ =>
    obtain rfl := looks
    intro vdev own
    cases own
  | cancelEnd =>
    obtain rfl := looks
    intro vdev own
    cases own
  | _ => exact looks.elim

def Prompt (queue : Queue) : Frame → Prop
  | .movePending vdev false => queue.blockingCmdWaiting = 0 →
      ∀ n ∈ (queue.vdevPending vdev).head?, (queue.node n).marks.markedForMovement = true →
        (queue.node n).vdev?.any queue.vdevActiveCmd = true
  | .cancelEnd => queue.active ≠ [] ∨ queue.anyVdevCmdActive = true →
      ∀ n ∈ queue.pending, queue.MayWait n
  | _ => True

theorem mayWait_iff : queue.MayWait n ↔ (queue.node n).vdev?.any queue.vdevActiveCmd = true ∨
    queue.blockingCmdActive = true ∨ queue.anyVdevCmdActive = true ∧
      ∃ b ∈ queue.pending, (queue.node b).isBlocking = true ∧
        (b = n ∨ [b, n].Sublist queue.pending ∨ (queue.node n).isHighPriority = true) := by
  constructor
  · rintro (bit | flag | ⟨active, pending, blocks, order⟩)
    · exact .inl bit
    · exact .inr (.inl flag)
    · exact .inr (.inr ⟨active, _, pending, blocks, order⟩)
  · rintro (bit | flag | ⟨active, b, pending, blocks, order⟩)
    · exact .busy bit
    · exact .blocked flag
    · exact .behind active pending blocks order

instance : Decidable (queue.MayWait n) := decidable_of_iff' _ mayWait_iff

instance (queue : Queue) (frame : Frame) : Decidable (queue.Prompt frame) := by
  unfold Prompt
  split <;> infer_instance

theorem HoldsUp.mayWait (holdsUp : queue.HoldsUp queue.pending) (there : n ∈ queue.pending) :
    queue.MayWait n := by
  rcases holdsUp n there with bit | ⟨active, b, pending, blocks, order⟩
  · exact .busy bit
  · exact .behind active pending blocks (order.imp_right .inl)

theorem Linked.mayWait_of_rests (linked : queue.Linked vdevs) (kind : queue.kind = .nonScan)
    (counts : queue.CountsWaiting) {frame : Frame} {lookup : Option VdevId}
    (looks : frame.Looks queue lookup) (rests : queue.Rests lookup)
    (prompt : queue.Prompt frame) (there : n ∈ queue.pending)
    (wakes : frame.Wakes queue n) : queue.MayWait n := by
  have of := counts.looks looks wakes
  cases lookup with
  | none => exact HoldsUp.mayWait rests there
  | some vdev =>
    have of := of vdev rfl
    have own : n ∈ queue.vdevPending vdev := by
      have listed := linked.ofVdev kind false vdev
      rw [vdevList_false, pdevList_false] at listed
      rw [listed]
      exact List.mem_filter.2 ⟨there, by simp [isOn, of]⟩
    obtain ⟨m, rest, list⟩ := List.exists_cons_of_ne_nil (List.ne_nil_of_mem own)
    have first : m ∈ (queue.vdevPending vdev).head? := by
      rw [list]
      rfl
    have ofFirst : (queue.node m).vdev? = some vdev := by
      have listed := linked.ofVdev kind false vdev
      rw [vdevList_false, pdevList_false, list] at listed
      have member : m ∈ queue.pending.filter (queue.isOn vdev) := by
        rw [← listed]
        exact List.mem_cons_self
      simpa [isOn] using (List.mem_filter.1 member).2
    have bit : (queue.node m).vdev?.any queue.vdevActiveCmd = true := by
      rcases rests m first with bit | marked
      · exact bit
      · cases frame with
        | movePending id removed =>
          have looks : some vdev = queue.vdevLookup (some id) removed := looks
          unfold vdevLookup at looks
          split at looks
          next direct =>
            obtain rfl := Option.some.inj looks
            simp only [Bool.and_eq_true, Bool.not_eq_true', beq_iff_eq] at direct
            obtain ⟨rfl, waiting⟩ := direct
            exact prompt waiting m first marked
          · cases looks
        | moveNext _ => cases looks
        | cancelEnd => cases looks
        | _ => exact looks.elim
    refine .busy ?_
    rw [ofFirst] at bit
    rw [of]
    exact bit

theorem not_admitted_nonScan {lookups : Lookups} {cmd : Command}
    (waits : queue.admits lookups cmd = false) (kind : queue.kind = .nonScan) :
    (cmd.isBlocking = true ∧ queue.anyVdevCmdActive = true) ∨
      queue.blockingCmdActive = true ∨ queue.blockingCmdWaiting ≠ 0 ∨
        queue.vdevActiveCmd cmd.vdev = true ∨ queue.vdevPending cmd.vdev ≠ [] := by
  unfold admits isActiveCmdAllowed at waits
  simp only [kind, Bool.and_eq_false_iff] at waits
  rcases waits with notAllowed | behindOwn
  · unfold isActiveNonScanCmdAllowed at notAllowed
    split at notAllowed
    next blocks =>
      split at notAllowed
      next active => exact .inl ⟨blocks, active⟩
      · cases notAllowed
    · split at notAllowed
      next held =>
        rw [Bool.or_eq_true, bne_iff_ne] at held
        refine .inr (held.imp_right fun counted => .inl fun zero => counted ?_)
        rw [zero]
        rfl
      · exact .inr (.inr (.inr (.inl (by simpa using notAllowed))))
  · have same : (queue.isActiveNonScanCmdAllowed cmd).2.vdevPending = queue.vdevPending := by
      unfold isActiveNonScanCmdAllowed
      split <;> split <;> rfl
    rw [same] at behindOwn
    exact .inr (.inr (.inr (.inr (List.isEmpty_eq_false_iff.1 behindOwn))))

theorem Held.fresh (awaited : queue.Awaited frames) (linked : queue.Linked vdevs)
    (kind : queue.kind = .nonScan) (counts : queue.CountsWaiting) {lookups : Lookups}
    {accepted : Accepted} (waits : queue.admits lookups accepted.cmd = false)
    (content : (after.node n).content = some accepted)
    (grows : ∀ m ∈ queue.pending, queue.Grows after m)
    (bits : after.vdevActiveCmd = queue.vdevActiveCmd)
    (flag : after.blockingCmdActive = queue.blockingCmdActive)
    (placed : after.pending = place accepted.cmd n queue.pending) :
    after.Held frames n := by
  have of : (after.node n).vdev? = some accepted.cmd.vdev := by simp [Node.vdev?, content]
  have inside : ∀ m ∈ queue.pending, m ∈ after.pending := by
    intro m there
    rw [placed]
    exact mem_place.2 (.inr there)
  have behind : ∀ b ∈ after.pending, (after.node b).isBlocking = true →
      after.anyVdevCmdActive = true → after.MayWait n := by
    intro b there blocks active
    by_cases other : b = n
    · exact .behind active there blocks (.inl other)
    refine .behind active there blocks (.inr ?_)
    rw [placed] at there ⊢
    unfold place at there ⊢
    split at there
    next high => exact .inr (by simp [Node.isHighPriority, content, high])
    next low =>
      rw [if_neg low]
      have before : b ∈ queue.pending := by simpa [other] using there
      exact .inl ((List.singleton_sublist.2 before).append (List.Sublist.refl [n]))
  -- what holds up a pending command of the same vdev, or a blocking one, holds this one up
  have likewise : ∀ m ∈ queue.pending,
      ((queue.node m).vdev? = some accepted.cmd.vdev ∨ (queue.node m).isBlocking = true) →
        after.Held frames n := by
    intro m there either
    have same := (grows m there).content
    have held : after.Held frames m := (grows m there).held (awaited m there)
      fun frame member _ => .inl member
    rcases held with (bit | set | ⟨active, there', blocks, -⟩) | ⟨frame, member, wakes⟩
    · rcases either with sameVdev | blocks
      · refine .inl (.busy ?_)
        rw [of, ← sameVdev]
        simpa [Node.vdev?, same] using bit
      · refine .inl (behind m (inside m there) ?_ ?_)
        · simpa [Node.isBlocking, same] using blocks
        · cases vdev : (after.node m).vdev? with
          | none => simp [vdev] at bit
          | some id =>
            rw [vdev] at bit
            exact decide_eq_true ⟨id, bit⟩
    · exact .inl (.blocked set)
    · exact .inl (behind _ there' blocks active)
    · refine .inr ⟨frame, member, ?_⟩
      cases frame with
      | movePending vdev removed =>
        rcases wakes with removed | blocking | ofM
        · exact .inl removed
        · exact .inr (.inl blocking)
        · rcases either with sameVdev | blocks
          · refine .inr (.inr ?_)
            rw [of, ← sameVdev, ← ofM]
            simp [Node.vdev?, same]
          · exact .inr (.inl ⟨m, inside m there, by simpa [Node.isBlocking, same] using blocks⟩)
      | _ => exact wakes
  rcases not_admitted_nonScan waits kind with ⟨blocks, active⟩ | set | counted | bit | behindOwn
  · have here : n ∈ after.pending := by
      rw [placed]
      exact mem_place.2 (.inl rfl)
    refine .inl (behind n here (by simp [Node.isBlocking, content, blocks]) ?_)
    unfold anyVdevCmdActive at active ⊢
    rwa [bits]
  · exact .inl (.blocked (flag.trans set))
  · have blocking : ∃ b ∈ queue.pending, (queue.node b).isBlocking = true := by
      by_contra none
      push Not at none
      exact counted (counts.2 fun b there => by simpa using none b there)
    obtain ⟨b, there, blocks⟩ := blocking
    exact likewise b there (.inr blocks)
  · refine .inl (.busy ?_)
    rw [of, bits]
    exact bit
  · obtain ⟨m, rest, list⟩ := List.exists_cons_of_ne_nil behindOwn
    have listed := linked.ofVdev kind false accepted.cmd.vdev
    rw [vdevList_false, pdevList_false, list] at listed
    have member : m ∈ queue.pending.filter (queue.isOn accepted.cmd.vdev) := by
      rw [← listed]
      exact List.mem_cons_self
    obtain ⟨there, on⟩ := List.mem_filter.1 member
    exact likewise m there (.inl (by simpa [isOn] using on))

theorem Awaited.enqueued (awaited : queue.Awaited frames) (linked : queue.Linked vdevs)
    (kind : queue.kind = .nonScan) (counts : queue.CountsWaiting) {lookups : Lookups}
    {accepted : Accepted} {status : Status} {taken : Option NodeId}
    (enqueued : queue.Enqueued lookups accepted status taken after) :
    after.Awaited frames := by
  have kept : ∀ {last : Queue}, last.pending = queue.pending →
      (∀ m ∈ queue.pending, queue.Grows last m) → last.Awaited frames := by
    intro last pending grows m there
    rw [pending] at there
    exact (grows m there).held (awaited m there) fun frame member _ => .inl member
  have counted : ∀ m ∈ queue.pending, queue.Grows (queue.counted accepted.cmd) m := by
    intro m there
    obtain ⟨waiting, same⟩ := counted_eq queue accepted.cmd
    rw [same]
    exact .of_same rfl (fun _ _ => rfl) rfl rfl there
  have taken : ∀ {n pool}, queue.pool = n :: pool → ∀ m ∈ queue.pending,
      queue.Grows ((queue.counted accepted.cmd).takeNode n pool accepted) m := by
    intro n pool first m there
    obtain ⟨-, -, nodes⟩ := linked.taken first accepted
    obtain ⟨waiting, same⟩ := counted_takeNode queue accepted.cmd n pool accepted
    rw [same] at nodes ⊢
    refine .of_same rfl (fun other member => ?_) rfl rfl there
    rw [nodes other (List.mem_append_left _ member)]
  have rest : ∀ n pool, ((queue.counted accepted.cmd).takeNode n pool accepted).pending =
        queue.pending ∧
      ((queue.counted accepted.cmd).takeNode n pool accepted).vdevActiveCmd =
        queue.vdevActiveCmd ∧
      ((queue.counted accepted.cmd).takeNode n pool accepted).blockingCmdActive =
        queue.blockingCmdActive ∧
      ((queue.counted accepted.cmd).takeNode n pool accepted).kind = .nonScan := by
    intro n pool
    obtain ⟨waiting, same⟩ := counted_takeNode queue accepted.cmd n pool accepted
    rw [same]
    exact ⟨rfl, rfl, rfl, kind⟩
  cases enqueued with
  | refused => exact awaited
  | turnedAway =>
    refine kept ?_ counted
    obtain ⟨waiting, same⟩ := counted_eq queue accepted.cmd
    rw [same]
  | @full n pool _ _ first =>
    obtain ⟨loose, -, -⟩ := linked.taken first accepted
    rw [if_pos kind]
    obtain ⟨disable, same⟩ := disableFor_eq
      ((queue.counted accepted.cmd).takeNode n pool accepted) accepted.cmd
    rw [same]
    refine kept (rest n pool).1 fun m there => ?_
    have here : m ∈ ((queue.counted accepted.cmd).takeNode n pool accepted).pending :=
      (rest n pool).1 ▸ there
    refine (taken first m there).trans (.trans ?_ (grows_freeNode ?_ here))
    · exact .of_same rfl (fun _ _ => rfl) rfl rfl here
    · exact loose
  | @pending n pool _ _ _ first waits _ lists =>
    obtain ⟨loose, node, -⟩ := linked.taken first accepted
    obtain ⟨pending, bits, flag, -⟩ := rest n pool
    have placed : after.pending = place accepted.cmd n queue.pending := by
      rw [lists.pending, if_neg Bool.false_ne_true, pending]
    have grows : ∀ m ∈ queue.pending, queue.Grows after m := by
      intro m there
      refine (taken first m there).trans ⟨⟨by rw [lists.node], fun b member blocks => ?_⟩,
        fun vdev bit => lists.bits ▸ bit, fun set => lists.blocking ▸ set⟩
      rw [placed, lists.node, pending]
      refine ⟨mem_place.2 (.inr (pending ▸ member)), blocks, fun order => order.trans ?_⟩
      unfold place
      split
      · exact List.sublist_cons_self _ _
      · exact List.sublist_append_left _ _
    intro m there
    rw [placed] at there
    rcases mem_place.1 there with rfl | there
    · exact Held.fresh awaited linked kind counts waits (by rw [lists.node, node]) grows
        (lists.bits.trans bits) (lists.blocking.trans flag) placed
    · exact (grows m there).held (awaited m there) fun frame member _ => .inl member
  | @active n pool last _ _ first _ _ lists =>
    obtain ⟨loose, -, -⟩ := linked.taken first accepted
    obtain ⟨pending, bits, flag, kind'⟩ := rest n pool
    obtain ⟨same, -, contents, effect, raised⟩ := lists.effect kind'
    rw [pending] at same
    refine kept same fun m there => (taken first m there).trans
      ⟨⟨contents m, fun b member blocks => ⟨?_, ?_, fun order => ?_⟩⟩, fun vdev bit => ?_,
        fun set => ?_⟩
    · rw [same, ← pending]
      exact member
    · exact (Node.isBlocking_congr (contents b)).trans blocks
    · rw [same, ← pending]
      exact order
    · rw [effect]
      by_cases own : vdev = accepted.cmd.vdev
      · simp [own]
      · rwa [Function.update_of_ne own]
    · rw [raised, set]
      rfl

end Queue

section Steps

variable {queue after : Queue} {vdevs : Finset VdevId} {choice : Choice} {frame : Frame}
  {new others : List Frame} {callbacks : List (Nat × CbReason)} {activating : List NodeId}
  {windows : List VdevId}

theorem Queue.Walked.wakes {call : CancelCall} (kind : queue.kind = .nonScan)
    (walked : queue.Walked call true new after) (n : NodeId) :
    ∃ frame ∈ new, frame.Wakes after n := by
  cases walked with
  | ended _ last =>
    rcases last with ⟨other, -⟩ | ⟨-, rfl⟩
    · exact absurd ⟨kind, rfl⟩ other
    · exact ⟨_, List.mem_cons_self, trivial⟩
  | removed => exact ⟨_, List.mem_cons_self, rfl⟩

theorem Queue.Awaited.walked (awaited : queue.Awaited others) (linked : queue.Linked vdevs)
    (kind : queue.kind = .nonScan) {call : CancelCall} {isActive : Bool}
    (spares : isActive = false → queue.SparesBlocking call)
    (walked : queue.Walked call isActive new after) : after.Awaited (new ++ others) := by
  cases isActive with
  | true =>
    intro n _
    obtain ⟨frame, member, wakes⟩ := walked.wakes kind n
    exact .inr ⟨frame, List.mem_append_left _ member, wakes⟩
  | false =>
    have stays : ∀ frame ∈ others, frame ∈ new ++ others := fun frame member =>
      List.mem_append_right _ member
    cases walked with
    | ended remarked _ =>
      intro n there
      rw [remarked.pending] at there
      exact (remarked.grows there).held (awaited n there) fun frame member _ =>
        .inl (stays frame member)
    | @removed m accepted marked mid _ _ remarked member chosen content _ unlists =>
      have listed : m ∈ marked.pdevList false := remarked.pdevList _ ▸ member
      have quiet : (marked.node m).isBlocking = false := by
        rw [remarked.isBlocking]
        rcases spares rfl m member with skipped | quiet
        · rw [skipped] at chosen
          cases chosen
        · exact quiet
      have before := linked.remarked remarked
      intro n there
      change n ∈ mid.pending at there
      have left : n ∈ marked.pending.erase m := by
        rw [unlists.pending] at there
        exact there
      have other : n ≠ m := by
        rintro rfl
        exact before.nodup_pending.not_mem_erase left
      have pending : n ∈ queue.pending :=
        remarked.pending ▸ List.mem_of_mem_erase left
      have grows := ((remarked.grows pending).trans (unlists.grows quiet other)).trans
        (Queue.grows_freeNode (before.loose unlists listed) there)
      exact grows.held (awaited n pending) fun frame member _ => .inl (stays frame member)

/-- What is left of a non-scan queue when an active command has been dequeued and its node
freed. -/
theorem Queue.Linked.dequeued (linked : queue.Linked vdevs) (kind : queue.kind = .nonScan)
    {m : NodeId} {accepted : Accepted} {mid : Queue} (active : m ∈ queue.active)
    (content : (queue.node m).content = some accepted) (unlists : queue.Unlists m true mid) :
    let after := (mid.markRemoved m accepted.cmd.vdev).freeNode m
    after.pending = queue.pending ∧ (∀ b ∈ queue.pending, after.node b = queue.node b) ∧
      after.blockingCmdActive = (queue.blockingCmdActive && !accepted.cmd.isBlocking) ∧
        after.vdevActiveCmd = Function.update queue.vdevActiveCmd accepted.cmd.vdev false := by
  have own : (mid.node m).isBlocking = accepted.cmd.isBlocking := by
    rw [unlists.node]
    simp [Node.isBlocking, content]
  have removed : mid.markRemoved m accepted.cmd.vdev = { mid with
      blockingCmdActive := mid.blockingCmdActive && !accepted.cmd.isBlocking
      vdevActiveCmd := Function.update mid.vdevActiveCmd accepted.cmd.vdev false } := by
    unfold Queue.markRemoved
    rw [unlists.kind, kind]
    simp only [own]
  rw [removed]
  refine ⟨unlists.pending, fun b member => ?_, ?_, ?_⟩
  · have other : b ≠ m := by
      rintro rfl
      exact (linked.loose unlists active) (List.mem_append_right _
        (List.mem_append_left _ (unlists.pending ▸ member)))
    exact (Queue.setNode_of_ne _ _ _ other).trans (congrFun unlists.node b)
  · exact congrArg (· && _) unlists.blocking
  · exact congrArg (Function.update · _ _) unlists.bits

theorem Queue.Awaited.dequeued (linked : queue.Linked vdevs) (kind : queue.kind = .nonScan)
    {m : NodeId} {accepted : Accepted} {mid : Queue} (active : m ∈ queue.active)
    (content : (queue.node m).content = some accepted) (unlists : queue.Unlists m true mid)
    {cmd : Target} (awaited : queue.Awaited (.dequeue cmd :: others)) :
    ((mid.markRemoved m accepted.cmd.vdev).freeNode m).Awaited
      ([.movePending accepted.cmd.vdev accepted.cmd.isBlocking, .release accepted] ++
        others) := by
  obtain ⟨pending, nodes, flags, bits⟩ := linked.dequeued kind active content unlists
  generalize (mid.markRemoved m accepted.cmd.vdev).freeNode m = after at *
  intro n there
  rw [pending] at there
  have carries : queue.Carries after n := by
    refine ⟨by rw [nodes n there], fun b member blocks => ?_⟩
    rw [pending, nodes b member]
    exact ⟨member, blocks, id⟩
  have vdev? := Node.vdev?_congr carries.content
  have woken (wakes : (Frame.movePending accepted.cmd.vdev accepted.cmd.isBlocking).Wakes
      after n) : after.Held
        ([.movePending accepted.cmd.vdev accepted.cmd.isBlocking, .release accepted] ++
          others) n := .inr ⟨_, List.mem_cons_self, wakes⟩
  rcases awaited n there with (bit | flag | ⟨_, member, blocks, _⟩) | ⟨more, member, wakes⟩
  · by_cases own : (queue.node n).vdev? = some accepted.cmd.vdev
    · exact woken (.inr (.inr (vdev?.trans own)))
    · refine .inl (.busy ?_)
      rw [vdev?, bits]
      cases of : (queue.node n).vdev? with
      | none => simp [of] at bit
      | some vdev =>
        have differs : vdev ≠ accepted.cmd.vdev := fun equal => own (equal ▸ of)
        rw [of] at bit
        change Function.update queue.vdevActiveCmd accepted.cmd.vdev false vdev = true
        rw [Function.update_of_ne differs]
        exact bit
  · cases blocks : accepted.cmd.isBlocking with
    | true => exact blocks ▸ woken (.inl blocks)
    | false =>
      refine .inl (.blocked ?_)
      rw [flags, flag, blocks]
      rfl
  · obtain ⟨still, blocks, -⟩ := carries.pending _ member blocks
    exact woken (.inr (.inl ⟨_, still, blocks⟩))
  · rcases List.mem_cons.1 member with rfl | member
    · exact wakes.elim
    · exact .inr ⟨more, List.mem_append_right _ member, carries.wakes wakes⟩

theorem Ran.awaited (ran : Ran queue choice frame new after callbacks)
    (kind : queue.kind = .nonScan)
    (sound : queue.Sound vdevs (frame.activating?.toList ++ activating)
      (frame.window?.toList ++ windows))
    (awaited : queue.Awaited (frame :: others)) (counts : queue.CountsWaiting)
    (counted : frame.uncounts = false) (spares : queue.SparesWaiting frame)
    (prompt : queue.Prompt frame) : after.Awaited (new ++ others) := by
  -- the other frames go on; what the frame itself was to see to is each case's argument
  have held : ∀ {n : NodeId}, queue.Grows after n → n ∈ queue.pending →
      (frame.Wakes queue n → after.Held (new ++ others) n) → after.Held (new ++ others) n := by
    intro n grows there mine
    refine grows.held (awaited n there) fun other member wakes => ?_
    rcases List.mem_cons.1 member with rfl | member
    · exact .inr (mine wakes)
    · exact .inl (List.mem_append_right _ member)
  have idle : (∀ n, ¬frame.Wakes queue n) → queue.Awaited others := by
    intro silent n there
    rcases awaited n there with mayWait | ⟨other, member, wakes⟩
    · exact .inl mayWait
    · rcases List.mem_cons.1 member with rfl | member
      · exact absurd wakes (silent n)
      · exact .inr ⟨other, member, wakes⟩
  have quiet : queue.Remarked after → (∀ n, ¬frame.Wakes queue n) →
      after.Awaited (new ++ others) := by
    intro remarked silent n there
    rw [remarked.pending] at there
    exact held (remarked.grows there) there fun wakes => absurd wakes (silent n)
  cases ran with
  | @activate m _ _ _ =>
    intro n there
    exact held (Queue.grows_setNode rfl there) there fun wakes => wakes.elim
  | @activated m _ =>
    intro n there
    exact held (Queue.grows_setNode rfl there) there fun wakes => wakes.elim
  | notStarted | settle | release | timeout | timeoutNotify =>
    exact quiet (.refl queue) fun n wakes => wakes.elim
  | notFound remarked => exact quiet remarked fun n wakes => wakes.elim
  | cancel walked =>
    refine (idle fun n wakes => wakes.elim).walked sound.linked kind (fun pending => ?_) walked
    subst pending
    exact spares
  | cancelNotify =>
    intro n there
    refine held (.of_same rfl (fun _ _ => rfl) rfl rfl there) there fun wakes => ?_
    exact .inr ⟨_, List.mem_cons_of_mem _ List.mem_cons_self, wakes⟩
  | @cancelResume cmd cancelling _ _ walked =>
    have settled : (queue.settleCancel cmd cancelling.isActive).Sound vdevs activating
        windows := Queue.Sound.resumed sound
    have kind' : (queue.settleCancel cmd cancelling.isActive).kind = .nonScan :=
      (Queue.settleCancel_kind cmd cancelling.isActive).trans kind
    cases active : cancelling.isActive with
    | true =>
      rw [active] at walked kind'
      intro n _
      obtain ⟨more, member, wakes⟩ := walked.wakes kind' n
      exact .inr ⟨more, List.mem_append_left _ member, wakes⟩
    | false =>
      have same : queue.settleCancel cmd false = queue := by
        have notBlocking : cmd.isBlocking = false := by
          simpa [Frame.uncounts, active] using counted
        simp [Queue.settleCancel, kind, notBlocking]
      rw [active, same] at walked
      refine Queue.Awaited.walked (idle fun n wakes => ?_) sound.linked kind
        (fun _ => spares active) walked
      have isActive : cancelling.isActive = true := wakes
      rw [active] at isActive
      cases isActive
  | @dequeue _ m accepted mid active content _ unlists =>
    exact Queue.Awaited.dequeued sound.linked kind active content unlists awaited
  | stay moves remarked _ rests =>
    intro n there
    rw [remarked.pending] at there
    refine held (remarked.grows there) there fun wakes => .inl ?_
    obtain ⟨lookup, looks, rests⟩ := rests kind
    exact (remarked.grows there).mayWait
      (sound.linked.mayWait_of_rests kind counts looks rests prompt there wakes)
  | stopped moves _ stops =>
    intro n there
    refine held (.of_same rfl (fun _ _ => rfl) rfl rfl there) there fun wakes => .inl ?_
    cases frame with
    | moveNext lookup =>
      rcases stops with some | flag
      · obtain rfl : lookup = none := wakes
        cases some
      · exact .blocked flag
    | cancelEnd => exact prompt stops n there
    | _ => exact stops.elim
  | @move _ _ m accepted marked _ moves remarked promotes _ _ _ _ goesOn =>
    obtain ⟨pending, -, -, bits, flag⟩ := promotes.effect (remarked.kind.trans kind)
    rcases goesOn with ⟨scan, -⟩ | ⟨-, lookup, ⟨looks, own⟩, rfl⟩
    · rw [kind] at scan
      cases scan
    intro n there
    rw [pending, remarked.pending] at there
    have inside : n ∈ queue.pending := List.mem_of_mem_erase there
    have own' : (queue.node m).isBlocking = accepted.cmd.isBlocking := by
      rw [← remarked.isBlocking]
      simp [Node.isBlocking, promotes.content]
    cases blocks : accepted.cmd.isBlocking with
    | true => exact .inl (.blocked (by simp [flag, blocks]))
    | false =>
      have other : n ≠ m := by
        rintro rfl
        exact sound.linked.nodup_pending.not_mem_erase there
      have quiet : (marked.node m).isBlocking = false := by
        rw [remarked.isBlocking, own', blocks]
      have grows := (remarked.grows inside).trans
        (promotes.grows (remarked.kind.trans kind) quiet other)
      refine held grows inside fun wakes => ?_
      cases lookup with
      | none =>
        exact .inr ⟨.moveNext none, by simp, rfl⟩
      | some vdev =>
        refine .inl (.busy ?_)
        have of := counts.looks looks wakes vdev rfl
        rw [Node.vdev?_congr grows.content, of, bits, own vdev rfl]
        simp

end Steps

end VendorModules.Ser
