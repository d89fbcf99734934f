import VendorModules.Ser.Operations

namespace VendorModules.Ser

namespace Queue

variable {queue after : Queue} {vdevs : Finset VdevId} {n : NodeId}

/-- Bits of `cmd_in_use` change, but not for a free node, and not the one that an
activation in progress is told by. -/
structure Remarked (queue after : Queue) : Prop where
  rest : after = { queue with node := after.node }
  content : ∀ m, (after.node m).content = (queue.node m).content
  timer : ∀ m, (after.node m).timer = (queue.node m).timer
  activation : ∀ m, (after.node m).marks.markedForActivation =
    (queue.node m).marks.markedForActivation
  free : ∀ m ∈ queue.pool, after.node m = queue.node m

namespace Remarked

theorem refl (queue : Queue) : queue.Remarked queue :=
  ⟨rfl, fun _ => rfl, fun _ => rfl, fun _ => rfl, fun _ _ => rfl⟩

theorem trans {last : Queue} (first : queue.Remarked after) (second : after.Remarked last) :
    queue.Remarked last := by
  have pool : after.pool = queue.pool := by rw [first.rest]
  refine ⟨?_, fun m => (second.content m).trans (first.content m),
    fun m => (second.timer m).trans (first.timer m),
    fun m => (second.activation m).trans (first.activation m), fun m free => ?_⟩
  · rw [second.rest, first.rest]
  · rw [second.free m (pool ▸ free), first.free m free]

theorem setMarks (used : n ∉ queue.pool) {change : Marks → Marks}
    (kept : ∀ marks, (change marks).markedForActivation = marks.markedForActivation) :
    queue.Remarked (queue.setMarks n change) := by
  unfold Queue.setMarks Node.setMarks
  refine ⟨rfl, fun m => ?_, fun m => ?_, fun m => ?_, fun m free => ?_⟩
  · exact setNode_content rfl
  · by_cases here : m = n
    · subst here
      simp
    · rw [setNode_of_ne _ _ _ here]
  · by_cases here : m = n
    · subst here
      simp [kept]
    · rw [setNode_of_ne _ _ _ here]
  · exact setNode_of_ne _ _ _ fun same => used (same ▸ free)

section

variable (remarked : queue.Remarked after)

include remarked

theorem kind : after.kind = queue.kind := by rw [remarked.rest]

theorem pool : after.pool = queue.pool := by rw [remarked.rest]

theorem active : after.active = queue.active := by rw [remarked.rest]

theorem pending : after.pending = queue.pending := by rw [remarked.rest]

theorem pdevList (isActive : Bool) : after.pdevList isActive = queue.pdevList isActive := by
  rw [remarked.rest]
  rfl

theorem vdevList (isActive : Bool) (vdev : VdevId) :
    after.vdevList isActive vdev = queue.vdevList isActive vdev := by
  rw [remarked.rest]
  rfl

theorem bits : after.vdevActiveCmd = queue.vdevActiveCmd := by rw [remarked.rest]

theorem key (m : NodeId) : (after.node m).key = (queue.node m).key := by
  simp only [Node.key, remarked.content]

theorem vdev? (m : NodeId) : (after.node m).vdev? = (queue.node m).vdev? := by
  simp only [Node.vdev?, remarked.content]

theorem isBlocking (m : NodeId) : (after.node m).isBlocking = (queue.node m).isBlocking := by
  simp only [Node.isBlocking, remarked.content]

theorem isSkipped (call : CancelCall) (m : NodeId) :
    after.isSkipped call m = queue.isSkipped call m := by
  have resolve : ∀ target : Target, target.resolve after = target.resolve queue := by
    intro target
    cases target with
    | key wanted => rfl
    | node m => exact remarked.key m
  simp only [Queue.isSkipped, remarked.kind, remarked.key, remarked.vdev?,
    remarked.isBlocking, resolve]

end

end Remarked

theorem Linked.remarked (linked : queue.Linked vdevs) (remarked : queue.Remarked after) :
    after.Linked vdevs := by
  have on : ∀ id, after.isOn id = queue.isOn id := by
    intro id
    funext m
    simp only [isOn, remarked.vdev?]
  refine ⟨?_, fun m => ?_, fun m => ?_, fun m => ?_, fun kind m member other => ?_,
    fun kind isActive id => ?_, fun kind m member other => ?_, fun kind m member id => ?_⟩
  · rw [remarked.pool, remarked.pending, remarked.active]
    exact linked.nodup
  · rw [remarked.pool]
    intro free
    rw [remarked.free m free]
    exact linked.free m free
  · rw [remarked.pending, remarked.active, remarked.content]
    exact linked.filled m
  · rw [remarked.pending, remarked.activation]
    exact linked.unmarked m
  · rw [remarked.kind] at kind
    rw [remarked.pending] at member ⊢
    rw [remarked.key, remarked.key]
    exact linked.keys kind m member other
  · rw [remarked.kind] at kind
    rw [remarked.vdevList, remarked.pdevList, on]
    exact linked.ofVdev kind isActive id
  · rw [remarked.kind] at kind
    rw [remarked.active] at member ⊢
    rw [remarked.vdev?, remarked.vdev?]
    exact linked.single kind m member other
  · rw [remarked.kind] at kind
    rw [remarked.active] at member
    rw [remarked.vdev?, remarked.bits]
    exact linked.bits kind m member id

theorem Linked.loose_markRemoved (linked : queue.Linked vdevs)
    (unlists : queue.Unlists n true after) (active : n ∈ queue.active) (vdev : VdevId) :
    (after.markRemoved n vdev).Loose n := by
  have loose := linked.loose unlists active
  unfold markRemoved
  split <;> exact loose

theorem Linked.not_pool (linked : queue.Linked vdevs)
    (listed : n ∈ queue.pending ++ queue.active) : n ∉ queue.pool := by
  intro free
  have zeroed := linked.free n free
  obtain ⟨accepted, content, -⟩ := linked.filled n listed
  rw [zeroed] at content
  cases content

theorem listed_of_pdevList {isActive : Bool} (member : n ∈ queue.pdevList isActive) :
    n ∈ queue.pending ++ queue.active := by
  cases isActive with
  | true => exact List.mem_append_right _ member
  | false => exact List.mem_append_left _ member

def Behind (queue : Queue) (list : List NodeId) (n : NodeId) : Prop :=
  ∃ b ∈ list, (queue.node b).isBlocking = true ∧ (b = n ∨ [b, n].Sublist list)

/-- No command on the list can become active: its vdev has one active, or some vdev has and
a blocking command comes first. -/
def HoldsUp (queue : Queue) (list : List NodeId) : Prop :=
  ∀ n ∈ list, (queue.node n).vdev?.any queue.vdevActiveCmd = true ∨
    queue.anyVdevCmdActive = true ∧ queue.Behind list n

theorem Remarked.holdsUp {list : List NodeId} (remarked : queue.Remarked after)
    (holdsUp : after.HoldsUp list) : queue.HoldsUp list := by
  intro n member
  have held := holdsUp n member
  rw [remarked.vdev?, remarked.bits] at held
  refine held.imp_right fun ⟨busy, b, there, blocks, order⟩ => ?_
  rw [remarked.isBlocking] at blocks
  simp only [anyVdevCmdActive, remarked.bits] at busy ⊢
  exact ⟨busy, b, there, blocks, order⟩

theorem Linked.nextOfPdev {list : List NodeId} (linked : queue.Linked vdevs)
    (pending : ∀ m ∈ list, m ∈ queue.pending) :
    queue.Remarked (queue.nextOfPdev list).2 ∧
      (∀ n, (queue.nextOfPdev list).1 = some n →
        n ∈ list ∧ (queue.node n).vdev?.any queue.vdevActiveCmd = false ∧
          ((queue.node n).isBlocking = true → queue.anyVdevCmdActive = false)) ∧
      ((queue.nextOfPdev list).1 = none → queue.HoldsUp list) := by
  induction list generalizing queue with
  | nil => exact ⟨.refl queue, by simp [Queue.nextOfPdev], fun _ n member => by cases member⟩
  | cons head rest ih =>
    have used : ∀ m ∈ head :: rest, m ∉ queue.pool := fun m member =>
      linked.not_pool (List.mem_append_left _ (pending m member))
    unfold Queue.nextOfPdev
    cases blocked : (queue.node head).isBlocking && queue.anyVdevCmdActive with
    | true =>
      refine ⟨.refl queue, by simp, fun _ n member => .inr ?_⟩
      rw [Bool.and_eq_true] at blocked
      refine ⟨blocked.2, head, List.mem_cons_self, blocked.1, ?_⟩
      rcases List.mem_cons.1 member with rfl | later
      · exact .inl rfl
      · exact .inr ((List.singleton_sublist.2 later).cons_cons head)
    | false =>
      have marked : queue.Remarked (queue.markNext rest) := by
        cases rest with
        | nil => exact .refl queue
        | cons next _ => exact .setMarks (used next (by simp)) fun _ => rfl
      generalize queue.markNext rest = mid at marked ⊢
      cases busy : (queue.node head).vdev?.any queue.vdevActiveCmd with
      | false =>
        simp only [Bool.false_eq_true, if_false]
        refine ⟨marked, fun n found => ?_, fun none => by cases none⟩
        obtain rfl := Option.some.inj found
        refine ⟨by simp, busy, fun blocking => ?_⟩
        simpa [blocking] using blocked
      | true =>
        simp only [Bool.false_eq_true, if_false, if_true]
        have cleared : queue.Remarked (mid.setMarks head
            fun marks => { marks with markedForMovement := false }) :=
          marked.trans (.setMarks (by rw [marked.pool]; exact used head (by simp))
            fun _ => rfl)
        generalize (mid.setMarks head
          fun marks => { marks with markedForMovement := false }) = last at cleared
        obtain ⟨remarked, chosen, stuck⟩ := ih (linked.remarked cleared)
          (fun m member => by
            rw [cleared.pending]
            exact pending m (by simp [member]))
        refine ⟨cleared.trans remarked, fun n found => ?_, fun none n member => ?_⟩
        · obtain ⟨member, idle, alone⟩ := chosen n found
          have same : last.anyVdevCmdActive = queue.anyVdevCmdActive := by
            simp only [anyVdevCmdActive, cleared.bits]
          rw [cleared.vdev?, cleared.bits] at idle
          rw [cleared.isBlocking, same] at alone
          exact ⟨by simp [member], idle, alone⟩
        · rcases List.mem_cons.1 member with rfl | later
          · exact .inl busy
          · refine (cleared.holdsUp (stuck none) n later).imp_right ?_
            rintro ⟨active, b, there, blocks, order⟩
            exact ⟨active, b, List.mem_cons_of_mem _ there, blocks,
              order.imp_right fun before => before.cons head⟩

structure Promotes (queue : Queue) (n : NodeId) (accepted : Accepted) (after : Queue) :
    Prop where
  pending : n ∈ queue.pending
  content : (queue.node n).content = some accepted
  linked : ∃ mid last, queue.Unlists n false mid ∧ mid.Lists n accepted.cmd true last ∧
    after =
      let marked := (last.markActive accepted.cmd).setMarks n
        fun marks => { marks with markedForActivation := true }
      if queue.kind = .nonScan ∧ accepted.cmd.isBlocking = true then
        { marked with blockingCmdWaiting := marked.blockingCmdWaiting - 1 }
      else marked

theorem Linked.room (linked : queue.Linked vdevs) (few : vdevs.card ≤ pdevMaxVdevs)
    (kind : queue.kind = .nonScan) {vdev : VdevId} (member : vdev ∈ vdevs)
    (idle : queue.vdevActiveCmd vdev = false) :
    queue.vdevActive vdev = [] ∧ queue.active.length < maxActiveCmds := by
  have none : ∀ m ∈ queue.active, (queue.node m).vdev? ≠ some vdev := by
    intro m active same
    rw [linked.bits kind m active vdev same] at idle
    cases idle
  have nodup : queue.active.Nodup := by
    have all := linked.nodup
    rw [List.nodup_append, List.nodup_append] at all
    exact all.2.1.2.1
  constructor
  · have onVdev := linked.ofVdev kind true vdev
    rw [vdevList_true, pdevList_true] at onVdev
    rw [onVdev, List.filter_eq_nil_iff]
    intro m active
    simp [isOn, none m active]
  · have injective : Set.InjOn (fun m => (queue.node m).vdev?) queue.active.toFinset := by
      intro m active other there same
      exact linked.single kind m (by simpa using active) other (by simpa using there) same
    have image : ∀ m ∈ queue.active.toFinset,
        (queue.node m).vdev? ∈ (vdevs.erase vdev).image some := by
      intro m active
      have active : m ∈ queue.active := by simpa using active
      obtain ⟨accepted, content, inside⟩ := linked.filled m (List.mem_append_right _ active)
      have of : (queue.node m).vdev? = some accepted.cmd.vdev := by
        simp [Node.vdev?, content]
      rw [of]
      refine Finset.mem_image_of_mem _ (Finset.mem_erase.2 ⟨?_, inside⟩)
      rintro same
      exact none m active (by rw [of, same])
    have count := Finset.card_le_card_of_injOn _ image injective
    rw [List.toFinset_card_of_nodup nodup] at count
    have images := Finset.card_image_le (s := vdevs.erase vdev) (f := some)
    have fewer := Finset.card_erase_lt_of_mem member
    unfold maxActiveCmds
    omega

theorem Linked.promote (linked : queue.Linked vdevs) (pending : n ∈ queue.pending)
    (first : queue.findCmd queue.pending (queue.node n).key = some n)
    {accepted : Accepted} (content : (queue.node n).content = some accepted)
    (room : ¬queue.Full accepted.cmd true) :
    ∃ after, queue.promote n = (some n, after) ∧ queue.Promotes n accepted after := by
  have vdev : (queue.node n).vdev? = some accepted.cmd.vdev := by
    simp [Node.vdev?, content]
  cases removed : queue.removeCmd (queue.node n).key false with
  | mk result mid =>
    rcases linked.removeCmd_cases removed with ⟨absent, -, -⟩ |
      ⟨m, found, ⟨marked, -, -⟩ | ⟨-, rfl, mid', unlists, same⟩⟩
    · rw [pdevList_false, first] at absent
      cases absent
    · rw [pdevList_false, first] at found
      obtain rfl := Option.some.inj found
      rw [linked.unmarked _ pending] at marked
      cases marked
    · rw [pdevList_false, first] at found
      obtain rfl := Option.some.inj found
      obtain rfl : mid = mid' := same _ vdev
      have stillRoom : ¬mid.Full accepted.cmd true := by
        unfold Full at room ⊢
        have onPdev := unlists.pdev true
        simp only [Bool.true_eq_false, if_false] at onPdev
        rw [unlists.kind, onPdev]
        rintro (⟨kind, full⟩ | full)
        · have onVdev := unlists.vdev kind true accepted.cmd.vdev
          simp only [Bool.true_eq_false, false_and, if_false] at onVdev
          rw [onVdev] at full
          exact room (.inl ⟨kind, full⟩)
        · refine room (.inr ?_)
          rw [full]
          simp only [maxOnPdev, unlists.kind]
      obtain ⟨last, lists, added⟩ := addCmd_room (n := n) stillRoom
      refine ⟨_, ?_, pending, content, mid, last, unlists, lists, rfl⟩
      have kind : (last.markActive accepted.cmd).kind = queue.kind := by
        rw [← unlists.kind, ← lists.kind]
        unfold markActive
        split <;> rfl
      unfold Queue.promote
      simp only [removed, unlists.node, content, added, if_true, setNode_kind,
        Queue.setMarks, kind]

theorem Linked.dequeueLocked (linked : queue.Linked vdevs) {key : Key}
    {removed : Option Accepted} (ran : queue.dequeueLocked key = (removed, after)) :
    (removed = none ∧ queue.Remarked after) ∨
      ∃ n accepted mid, removed = some accepted ∧
        queue.findCmd queue.active key = some n ∧
          (queue.node n).content = some accepted ∧
            (queue.node n).marks.markedForActivation = false ∧
              queue.Unlists n true mid ∧
                after = (mid.markRemoved n accepted.cmd.vdev).freeNode n := by
  unfold Queue.dequeueLocked at ran
  cases result : queue.removeCmd key true with
  | mk removal mid =>
    simp only [result] at ran
    rcases linked.removeCmd_cases result with ⟨-, rfl, rfl⟩ |
      ⟨n, found, ⟨marked, rfl, rfl⟩ | ⟨unmarked, rfl, mid', unlists, same⟩⟩
    · obtain ⟨rfl, rfl⟩ := Prod.mk.inj ran
      exact .inl ⟨rfl, .refl _⟩
    · obtain ⟨rfl, rfl⟩ := Prod.mk.inj ran
      have member := listed_of_pdevList (findCmd_some found).1
      exact .inl ⟨rfl, .setMarks (linked.not_pool member) fun _ => rfl⟩
    · have listed := listed_of_pdevList (findCmd_some found).1
      obtain ⟨accepted, content, -⟩ := linked.filled n listed
      have vdev : (queue.node n).vdev? = some accepted.cmd.vdev := by
        simp [Node.vdev?, content]
      obtain rfl : mid = mid'.markRemoved n accepted.cmd.vdev := same _ vdev
      have node : (mid'.markRemoved n accepted.cmd.vdev).node = queue.node := by
        rw [← unlists.node]
        unfold markRemoved
        split <;> rfl
      simp only [node, content] at ran
      obtain ⟨rfl, rfl⟩ := Prod.mk.inj ran
      exact .inr ⟨n, accepted, mid', rfl, found, content, unmarked, unlists, rfl⟩

theorem unlink_unlists {isActive : Bool} {accepted : Accepted}
    (content : (queue.node n).content = some accepted) :
    ∃ mid, queue.Unlists n isActive mid ∧ queue.unlink n isActive = mid.freeNode n := by
  have vdev : (queue.node n).vdev? = some accepted.cmd.vdev := by
    simp [Node.vdev?, content]
  unfold Queue.unlink
  cases kind : queue.kind with
  | scan => exact ⟨_, unlists_scan kind, rfl⟩
  | nonScan =>
    refine ⟨_, unlists_nonScan vdev, ?_⟩
    simp only [vdev]
    congr 1
    cases isActive <;> rfl

theorem Linked.unlink (linked : queue.Linked vdevs) {isActive : Bool}
    (member : n ∈ queue.pdevList isActive) :
    ∃ mid, queue.Unlists n isActive mid ∧ queue.unlink n isActive = mid.freeNode n := by
  obtain ⟨accepted, content, -⟩ := linked.filled n (listed_of_pdevList member)
  exact unlink_unlists content

theorem Linked.cancelWalk {call : CancelCall} {isActive hasPsoc timerStops : Bool}
    {result : WalkEnd} (linked : queue.Linked vdevs) {here passed : Option NodeId}
    {left : Nat} (ran : queue.cancelWalk call isActive hasPsoc timerStops here passed left =
      (result, after)) :
    (result = .ended ∧ queue.Remarked after) ∨ result = .astray ∨
      ∃ n accepted marked mid walk, result = .removed accepted walk ∧
        queue.Remarked marked ∧ n ∈ queue.pdevList isActive ∧
          queue.isSkipped call n = false ∧ (queue.node n).content = some accepted ∧
            (isActive = true → (queue.node n).marks.markedForActivation = false) ∧
              marked.Unlists n isActive mid ∧ after = mid.freeNode n := by
  induction left generalizing queue here passed with
  | zero =>
    obtain ⟨rfl, rfl⟩ := Prod.mk.inj ran
    exact .inl ⟨rfl, .refl _⟩
  | succ left ih =>
    unfold Queue.cancelWalk at ran
    split at ran
    · obtain ⟨rfl, rfl⟩ := Prod.mk.inj ran
      exact .inl ⟨rfl, .refl _⟩
    split at ran
    · obtain ⟨rfl, rfl⟩ := Prod.mk.inj ran
      exact .inr (.inl rfl)
    · obtain ⟨rfl, rfl⟩ := Prod.mk.inj ran
      exact .inl ⟨rfl, .refl _⟩
    next n found =>
      have member : n ∈ queue.pdevList isActive := by
        cases here with
        | none =>
          simp only [nextInList, Option.some.injEq] at found
          exact List.mem_of_mem_head? found
        | some before' =>
          simp only [nextInList] at found
          split at found
          · have tail := List.mem_of_mem_head? (Option.some.inj found)
            exact (List.dropWhile_sublist _).subset (List.mem_of_mem_tail tail)
          · cases found
      have used := linked.not_pool (listed_of_pdevList member)
      split at ran
      · exact ih linked ran
      next meant =>
      split at ran
      · obtain ⟨rfl, rfl⟩ := Prod.mk.inj ran
        exact .inl ⟨rfl, .refl _⟩
      split at ran
      next marked =>
        have remarked : queue.Remarked (queue.setMarks n
            fun marks => { marks with markedForCancel := true }) :=
          .setMarks used fun _ => rfl
        rcases ih (linked.remarked remarked) ran with ⟨rfl, ended⟩ | astray |
          ⟨m, accepted, marked, mid, walk, rfl, more, there, chosen, content, unmarked,
            unlists, rfl⟩
        · exact .inl ⟨rfl, remarked.trans ended⟩
        · exact .inr (.inl astray)
        · refine .inr (.inr ⟨m, accepted, marked, mid, walk, rfl, remarked.trans more, ?_,
            ?_, ?_, fun active => ?_, unlists, rfl⟩)
          · rw [remarked.pdevList] at there
            exact there
          · rw [remarked.isSkipped] at chosen
            exact chosen
          · rw [remarked.content] at content
            exact content
          · have kept := unmarked active
            rw [remarked.activation] at kept
            exact kept
      next notMarked =>
        split at ran
        · obtain ⟨rfl, rfl⟩ := Prod.mk.inj ran
          exact .inl ⟨rfl, .refl _⟩
        obtain ⟨accepted, content, -⟩ := linked.filled n (listed_of_pdevList member)
        obtain ⟨mid, unlists, unlinked⟩ := linked.unlink member
        rw [content] at ran
        obtain ⟨rfl, rfl⟩ := Prod.mk.inj ran
        refine .inr (.inr ⟨n, accepted, queue, mid, _, rfl, .refl _, member,
          by simpa using meant, content, fun active => ?_, unlists, unlinked⟩)
        simpa [active] using notMarked

def Counts (queue : Queue) (cmd : Command) : Prop :=
  queue.kind = .nonScan ∧ cmd.isBlocking = true ∧ queue.anyVdevCmdActive = true

instance (queue : Queue) (cmd : Command) : Decidable (queue.Counts cmd) :=
  inferInstanceAs (Decidable (_ ∧ _ ∧ _))

def counted (queue : Queue) (cmd : Command) : Queue :=
  if queue.Counts cmd then
    { queue with blockingCmdWaiting := queue.blockingCmdWaiting + 1 }
  else queue

def admits (queue : Queue) (lookups : Lookups) (cmd : Command) : Bool :=
  (queue.isActiveCmdAllowed lookups cmd).1

theorem counted_eq (queue : Queue) (cmd : Command) :
    ∃ waiting, queue.counted cmd = { queue with blockingCmdWaiting := waiting } := by
  unfold counted
  split
  · exact ⟨_, rfl⟩
  · exact ⟨_, rfl⟩

theorem isActiveCmdAllowed_eq (queue : Queue) (lookups : Lookups) (cmd : Command) :
    queue.isActiveCmdAllowed lookups cmd = (queue.admits lookups cmd, queue.counted cmd) := by
  refine Prod.ext rfl ?_
  have nonScan : (queue.isActiveNonScanCmdAllowed cmd).2 =
      if cmd.isBlocking = true ∧ queue.anyVdevCmdActive = true then
        { queue with blockingCmdWaiting := queue.blockingCmdWaiting + 1 }
      else queue := by
    unfold isActiveNonScanCmdAllowed
    cases cmd.isBlocking with
    | false => simp only [Bool.false_eq_true, false_and, if_false]; split <;> rfl
    | true => simp only [if_true, true_and]; split <;> rfl
  unfold isActiveCmdAllowed counted Counts
  split
  next kind => simp [kind]
  next kind => simp only [kind, true_and, nonScan]

def Duplicate (queue : Queue) (lookups : Lookups) (cmd : Command) : Prop :=
  lookups.serVdevObj = true ∧
    queue.isCmdPresent cmd.key (queue.admits lookups cmd) = true

instance (queue : Queue) (lookups : Lookups) (cmd : Command) :
    Decidable (queue.Duplicate lookups cmd) :=
  inferInstanceAs (Decidable (_ ∧ _))

def Refuses (queue : Queue) (lookups : Lookups) (cmd : Command) : Prop :=
  queue.kind = .nonScan ∧
    (lookups.serVdevObj = false ∨ queue.queueDisable cmd.vdev = true)

theorem isCmdPresent_counted (queue : Queue) (cmd other : Command) (isActive : Bool) :
    (queue.counted cmd).isCmdPresent other.key isActive =
      queue.isCmdPresent other.key isActive := by
  obtain ⟨waiting, same⟩ := counted_eq queue cmd
  rw [same]
  rfl

theorem Linked.takeNode (linked : queue.Linked vdevs) {pool : List NodeId}
    (first : queue.pool = n :: pool) (accepted : Accepted) :
    (queue.takeNode n pool accepted).Linked vdevs ∧
      (queue.takeNode n pool accepted).Loose n ∧
        (queue.takeNode n pool accepted).node n = { content := some accepted } := by
  have nodup : (n :: (pool ++ (queue.pending ++ queue.active))).Nodup := by
    have all := linked.nodup
    rwa [first] at all
  have loose : ({ queue with pool := pool } : Queue).Loose n := (List.nodup_cons.1 nodup).1
  have taken : ({ queue with pool := pool } : Queue).Linked vdevs :=
    ⟨(List.nodup_cons.1 nodup).2,
      fun m member => linked.free m (by rw [first]; exact List.mem_cons_of_mem _ member),
      linked.filled, linked.unmarked, linked.keys, linked.ofVdev, linked.single,
      linked.bits⟩
  refine ⟨taken.setNode_loose loose _, loose, ?_⟩
  have zeroed := linked.free n (by rw [first]; exact List.mem_cons_self)
  unfold Queue.takeNode
  rw [setNode_self, zeroed]

/-- What the section of a request does: the status, the node to be activated, and the
queue it leaves. -/
inductive Enqueued (queue : Queue) (lookups : Lookups) (accepted : Accepted) :
    Status → Option NodeId → Queue → Prop
  | refused {status : Status} (denied : status ≠ .active ∧ status ≠ .pending)
      (refuses : queue.Refuses lookups accepted.cmd) :
      Enqueued queue lookups accepted status none queue
  | turnedAway {status : Status} (denied : status ≠ .active ∧ status ≠ .pending)
      (takes : ¬queue.Refuses lookups accepted.cmd)
      (reason : queue.Duplicate lookups accepted.cmd ∨ queue.pool = []) :
      Enqueued queue lookups accepted status none (queue.counted accepted.cmd)
  | full {n : NodeId} {pool : List NodeId} (takes : ¬queue.Refuses lookups accepted.cmd)
      (new : ¬queue.Duplicate lookups accepted.cmd) (first : queue.pool = n :: pool)
      (full : queue.Full accepted.cmd (queue.admits lookups accepted.cmd)) :
      Enqueued queue lookups accepted .deniedListFull none
        ((if queue.kind = .nonScan then
          ((queue.counted accepted.cmd).takeNode n pool accepted).disableFor accepted.cmd
        else (queue.counted accepted.cmd).takeNode n pool accepted).freeNode n)
  | pending {n : NodeId} {pool : List NodeId} {after : Queue}
      (takes : ¬queue.Refuses lookups accepted.cmd)
      (new : ¬queue.Duplicate lookups accepted.cmd) (first : queue.pool = n :: pool)
      (admits : queue.admits lookups accepted.cmd = false)
      (room : ¬queue.Full accepted.cmd false)
      (lists : ((queue.counted accepted.cmd).takeNode n pool accepted).Lists n
        accepted.cmd false after) :
      Enqueued queue lookups accepted .pending none after
  | active {n : NodeId} {pool : List NodeId} {last : Queue}
      (takes : ¬queue.Refuses lookups accepted.cmd)
      (new : ¬queue.Duplicate lookups accepted.cmd) (first : queue.pool = n :: pool)
      (admits : queue.admits lookups accepted.cmd = true)
      (room : ¬queue.Full accepted.cmd true)
      (lists : ((queue.counted accepted.cmd).takeNode n pool accepted).Lists n
        accepted.cmd true last) :
      Enqueued queue lookups accepted .active (some n)
        ((last.markActive accepted.cmd).setMarks n
          fun marks => { marks with markedForActivation := true })

theorem counted_linked (linked : queue.Linked vdevs) (cmd : Command) :
    (queue.counted cmd).Linked vdevs := by
  obtain ⟨waiting, same⟩ := counted_eq queue cmd
  rw [same]
  exact linked.setFlags linked.bits

theorem counted_takeNode (queue : Queue) (cmd : Command) (n : NodeId) (pool : List NodeId)
    (accepted : Accepted) : ∃ waiting,
      (queue.counted cmd).takeNode n pool accepted =
        { queue.takeNode n pool accepted with blockingCmdWaiting := waiting } := by
  obtain ⟨waiting, same⟩ := counted_eq queue cmd
  rw [same]
  exact ⟨_, rfl⟩

theorem Linked.taken (linked : queue.Linked vdevs) {pool : List NodeId}
    (first : queue.pool = n :: pool) (accepted : Accepted) :
    ((queue.counted accepted.cmd).takeNode n pool accepted).Loose n ∧
      ((queue.counted accepted.cmd).takeNode n pool accepted).node n =
        { content := some accepted } ∧
      ∀ m ∈ queue.pending ++ queue.active,
        ((queue.counted accepted.cmd).takeNode n pool accepted).node m = queue.node m := by
  obtain ⟨-, loose, node⟩ := linked.takeNode first accepted
  obtain ⟨waiting, same⟩ := counted_takeNode queue accepted.cmd n pool accepted
  rw [same]
  refine ⟨loose, node, fun m there => setNode_of_ne _ _ _ ?_⟩
  rintro rfl
  exact loose (List.mem_append_right _ there)

theorem not_on_vdevList {lookups : Lookups} {cmd : Command} (kind : queue.kind = .nonScan)
    (takes : ¬queue.Refuses lookups cmd) (new : ¬queue.Duplicate lookups cmd) :
    ∀ m ∈ queue.vdevList (queue.admits lookups cmd) cmd.vdev,
      (queue.node m).key ≠ cmd.key := by
  have vdevObj : lookups.serVdevObj = true := by
    by_contra missing
    exact takes ⟨kind, .inl (by simpa using missing)⟩
  refine findCmd_none ?_
  simp only [Duplicate, vdevObj, isCmdPresent, presenceList, kind, Command.key, true_and,
    Bool.not_eq_true, Option.isSome_eq_false_iff, Option.isNone_iff_eq_none] at new
  exact new

theorem Linked.enqueued (linked : queue.Linked vdevs) (lookups : Lookups) (ticket : Nat)
    (cmd : Command) {status : Status} {taken : Option NodeId}
    (ran : queue.enqueueLocked lookups ticket cmd = (status, taken, after)) :
    queue.Enqueued lookups ⟨ticket, cmd⟩ status taken after := by
  unfold Queue.enqueueLocked at ran
  by_cases noVdev : queue.kind = .nonScan ∧ lookups.serVdevObj = false
  · rw [if_pos noVdev] at ran
    cases ran
    exact .refused (by simp) ⟨noVdev.1, .inl noVdev.2⟩
  rw [if_neg noVdev] at ran
  by_cases disabled : queue.kind = .nonScan ∧ queue.queueDisable cmd.vdev = true
  · rw [if_pos disabled] at ran
    cases ran
    exact .refused (by simp) ⟨disabled.1, .inr disabled.2⟩
  rw [if_neg disabled, isActiveCmdAllowed_eq] at ran
  have takes : ¬queue.Refuses lookups cmd := by
    rintro ⟨kind, missing | disable⟩
    · exact noVdev ⟨kind, missing⟩
    · exact disabled ⟨kind, disable⟩
  have pool : (queue.counted cmd).pool = queue.pool := by
    obtain ⟨waiting, same⟩ := counted_eq queue cmd
    rw [same]
  simp only [isCmdPresent_counted] at ran
  by_cases new : queue.Duplicate lookups cmd
  · rw [if_pos (by simpa [Duplicate] using new)] at ran
    cases ran
    exact .turnedAway (by simp) takes (.inl new)
  rw [if_neg (by simpa [Duplicate] using new), pool] at ran
  cases first : queue.pool with
  | nil =>
    rw [first] at ran
    cases ran
    exact .turnedAway (by simp) takes (.inr first)
  | cons n rest =>
    rw [first] at ran
    obtain ⟨ready, loose, node⟩ := (counted_linked linked cmd).takeNode
      (pool.trans first) ⟨ticket, cmd⟩
    obtain ⟨waiting, same⟩ := counted_takeNode queue cmd n rest ⟨ticket, cmd⟩
    have same' : ∀ isActive, ((queue.counted cmd).takeNode n rest ⟨ticket, cmd⟩).Full cmd
        isActive ↔ queue.Full cmd isActive := by
      intro isActive
      rw [same]
      rfl
    by_cases full : queue.Full cmd (queue.admits lookups cmd)
    · have absent : queue.kind = .nonScan →
          ∀ m ∈ queue.vdevList (queue.admits lookups cmd) cmd.vdev,
            ((queue.takeNode n rest ⟨ticket, cmd⟩).node m).key ≠ cmd.key := by
        intro kind m member
        have other : m ≠ n := by
          rintro rfl
          rw [linked.ofVdev kind] at member
          refine linked.not_pool (listed_of_pdevList (List.mem_filter.1 member).1) ?_
          simp [first]
        unfold Queue.takeNode
        rw [setNode_of_ne _ _ _ other]
        exact not_on_vdevList kind takes new m member
      have fresh : queue.kind = .nonScan →
          n ∉ queue.vdevList (queue.admits lookups cmd) cmd.vdev := by
        intro kind member
        rw [linked.ofVdev kind] at member
        refine linked.not_pool (listed_of_pdevList (List.mem_filter.1 member).1) ?_
        simp [first]
      have denied := addCmd_full ((same' _).2 full)
        (n := n) (by rw [same]; exact fresh) (by rw [same]; exact absent)
        (by rw [node]; rfl) (by rw [node])
      simp only [denied] at ran
      cases ran
      have kind : ((queue.counted cmd).takeNode n rest ⟨ticket, cmd⟩).kind = queue.kind := by
        rw [same]
        rfl
      rw [kind]
      exact .full takes new first full
    · obtain ⟨last, lists, added⟩ := addCmd_room (n := n) (mt (same' _).1 full)
      simp only [added] at ran
      cases admits : queue.admits lookups cmd with
      | true =>
        rw [admits] at lists ran
        simp only [if_true] at ran
        cases ran
        exact .active takes new first admits (admits ▸ full) lists
      | false =>
        rw [admits] at lists ran
        simp only [Bool.false_eq_true, if_false] at ran
        cases ran
        exact .pending takes new first admits (admits ▸ full) lists

theorem Linked.enqueueCmd (linked : queue.Linked vdevs) {lookups : Lookups} {ticket : Nat}
    {cmd? : Option Command} {status : Status} {taken : Option NodeId}
    (ran : queue.enqueueCmd lookups ticket cmd? = (status, taken, after)) :
    (status = .deniedUnspecified ∧ taken = none ∧ after = queue ∧
        ∀ cmd, cmd? = some cmd → ¬lookups.Receives cmd) ∨
      ∃ cmd, cmd? = some cmd ∧ lookups.Receives cmd ∧
        queue.Enqueued lookups ⟨ticket, cmd⟩ status taken after := by
  unfold Queue.enqueueCmd at ran
  cases cmd? with
  | none =>
    cases ran
    exact .inl ⟨rfl, rfl, rfl, by simp⟩
  | some cmd =>
    simp only at ran
    split at ran
    next early =>
      cases ran
      refine .inl ⟨rfl, rfl, rfl, ?_⟩
      intro other same received
      obtain rfl := Option.some.inj same
      obtain ⟨callback, pdev, serPdevObj⟩ := received
      simp [callback, pdev, serPdevObj] at early
    next late =>
      refine .inr ⟨cmd, rfl, ?_, linked.enqueued lookups ticket cmd ran⟩
      simpa [Lookups.Receives, and_assoc] using late

end Queue

end VendorModules.Ser
