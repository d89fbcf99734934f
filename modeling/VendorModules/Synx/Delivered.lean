import VendorModules.Synx.Outcome

namespace VendorModules.Synx

open Lib

variable {s s' : State}

/-! Messages go to the cores that waited, once, when the object ends. -/

theorem CoreId.mem_all (id : CoreId) : id ∈ CoreId.all := by
  cases id <;> decide

theorem filter_all {wakes : CoreId → Bool} {id : CoreId} :
    (CoreId.all.filter wakes).filter (fun id' => id' = id) = if wakes id then [id] else [] := by
  rw [List.filter_filter]
  cases id <;> simp [CoreId.all, List.filter_cons]

theorem filter_messages {signaled : Signaled} {status handle : Nat} {id : CoreId}
    (signals : signaled.data ≠ (0, 0)) :
    (signaled.messages status).filter
        (fun message => message.handle = handle ∧ message.core = id) =
      if signaled.data.1 = handle ∧ signaled.waitCores id = true ∧
          (status = SYNX_STATE_SIGNALED_SSR ∨ id ≠ .apss) then
        [⟨id, signaled.data.1, signaled.data.2⟩]
      else [] := by
  rw [Signaled.messages, if_neg signals, List.filter_map]
  by_cases same : signaled.data.1 = handle
  · have only : (fun message : Message => decide (message.handle = handle ∧ message.core = id)) ∘
        (fun id => (⟨id, signaled.data.1, signaled.data.2⟩ : Message)) =
        fun id' => decide (id' = id) := by
      funext id'
      simp [same]
    rw [only, filter_all]
    simp only [Bool.and_eq_true, Bool.or_eq_true, beq_iff_eq, bne_iff_ne, same, true_and]
    split
    · rfl
    · rfl
  · rw [if_neg fun all => same all.1]
    simp [same, Function.comp_def]

structure State.Deliveries (s : State) : Prop where
  unborn : ∀ idx, ¬ s.Created idx → ∀ id, s.history.waited idx id = false
  unseen : ∀ pIdx, s.history.phase pIdx = .merging → ∀ id, s.history.waited pIdx id = false
  handles : ∀ idx, s.Created idx → handleIndex (s.table idx).handle = idx
  senders : ∀ message ∈ s.history.sent, s.Created (handleIndex message.handle)
  waiting : ∀ idx, s.Created idx → ¬ s.Complete idx → ∀ id,
    (s.table idx).waiters id = s.history.waited idx id
  cleared : ∀ idx, s.Created idx → s.Complete idx → ∀ id, (s.table idx).waiters id = false
  silent : ∀ idx, s.Created idx → ∀ id, id ≠ .apss →
    ¬ (s.Complete idx ∧ s.history.waited idx id = true) → s.sentTo idx id = []
  delivered : ∀ idx, s.Created idx → ∀ id, id ≠ .apss →
    s.Complete idx ∧ s.history.waited idx id = true →
    s.sentTo idx id = [⟨id, (s.table idx).handle, (s.table idx).status⟩]

namespace State.Deliveries

/-- A step that sends nothing and leaves an object that someone waits for as it is, but for
its parents. -/
theorem of_same (deliveries : s.Deliveries) (bitmap : s'.bitmap = s.bitmap)
    (waited : s'.history.waited = s.history.waited) (sent : s'.history.sent = s.history.sent)
    (unseen : ∀ pIdx, s'.history.phase pIdx = .merging → ∀ id,
      s.history.waited pIdx id = false)
    (same : ∀ idx, (s'.table idx).handle = (s.table idx).handle ∧
      (s'.table idx).waiters = (s.table idx).waiters ∧
      ((∀ id, s.history.waited idx id = false) ∨
        (s'.Complete idx ↔ s.Complete idx) ∧ (s'.table idx).status = (s.table idx).status)) :
    s'.Deliveries := by
  have created : ∀ {idx}, s'.Created idx ↔ s.Created idx := by
    intro idx
    rw [State.Created, State.Created, bitmap]
  have sentTo : ∀ idx id, s'.sentTo idx id = s.sentTo idx id := fun idx id => by
    rw [State.sentTo, State.sentTo, sent, (same idx).1]
  -- an object that nobody has asked for has no waiters either way
  have unasked : ∀ idx, s.Created idx → (∀ id, s.history.waited idx id = false) → ∀ id,
      (s.table idx).waiters id = false := fun idx made none id => by
    by_cases complete : s.Complete idx
    · exact deliveries.cleared idx made complete id
    · rw [deliveries.waiting idx made complete, none]
  refine
    { unborn := fun idx absent => waited ▸ deliveries.unborn idx (mt created.mpr absent)
      unseen := fun pIdx phase => waited ▸ unseen pIdx phase
      handles := fun idx made => (same idx).1 ▸ deliveries.handles idx (created.mp made)
      senders := fun message member => created.mpr (deliveries.senders message (sent ▸ member))
      waiting := fun idx made pending id => ?_
      cleared := fun idx made complete id => ?_
      silent := fun idx made id other quiet => ?_
      delivered := fun idx made id other due => ?_ }
  · rw [(same idx).2.1, waited]
    rcases (same idx).2.2 with none | ⟨complete, -⟩
    · rw [unasked idx (created.mp made) none, none]
    · exact deliveries.waiting idx (created.mp made) (mt complete.mpr pending) id
  · rw [(same idx).2.1]
    rcases (same idx).2.2 with none | ⟨complete', -⟩
    · exact unasked idx (created.mp made) none id
    · exact deliveries.cleared idx (created.mp made) (complete'.mp complete) id
  · rw [sentTo]
    refine deliveries.silent idx (created.mp made) id other fun due => quiet ?_
    rw [waited]
    rcases (same idx).2.2 with none | ⟨complete, -⟩
    · rw [none] at due
      cases due.2
    · exact ⟨complete.mpr due.1, due.2⟩
  · rw [waited] at due
    rcases (same idx).2.2 with none | ⟨complete, status⟩
    · rw [none] at due
      cases due.2
    · rw [sentTo, (same idx).1, status]
      exact deliveries.delivered idx (created.mp made) id other ⟨complete.mp due.1, due.2⟩

theorem create (deliveries : s.Deliveries) {idx handle : Nat} (index : handleIndex handle = idx)
    (free : s.bitmap idx = false) :
    State.Deliveries
      { s with bitmap := put s.bitmap idx true, table := put s.table idx (.active handle) } := by
  have unborn : ¬ s.Created idx := fun created => by
    rw [created.2] at free
    cases free
  have older : ∀ {j}, s.Created j →
      State.Created { s with bitmap := put s.bitmap idx true } j := fun {j} created => by
    have differs : j ≠ idx := fun same => unborn (same ▸ created)
    exact ⟨created.1, (put_other differs).trans created.2⟩
  have before : ∀ {j}, j ≠ idx →
      State.Created { s with bitmap := put s.bitmap idx true } j → s.Created j :=
    fun differs created => ⟨created.1, (put_other differs).symm.trans created.2⟩
  have pending : ¬ State.Complete
      { s with bitmap := put s.bitmap idx true, table := put s.table idx (.active handle) } idx :=
    fun complete => complete.2 (by simp [Coredata.active])
  refine
    { unborn := fun j absent => deliveries.unborn j fun created => absent (older created)
      unseen := deliveries.unseen
      handles := fun j created => ?_
      senders := fun message member => older (deliveries.senders message member)
      waiting := fun j created pending' id => ?_
      cleared := fun j created complete id => ?_
      silent := fun j created id other quiet => ?_
      delivered := fun j created id other due => ?_ }
  · by_cases same : j = idx
    · subst same
      simp only [put_same]
      exact index
    · simpa only [put_other same] using deliveries.handles j (before same created)
  · by_cases same : j = idx
    · subst same
      rw [deliveries.unborn j unborn id]
      simp [Coredata.active]
    · simp only [State.Complete, put_other same] at pending' ⊢
      exact deliveries.waiting j (before same created) pending' id
  · by_cases same : j = idx
    · exact absurd (same ▸ complete) pending
    · simp only [State.Complete, put_other same] at complete ⊢
      exact deliveries.cleared j (before same created) complete id
  · by_cases same : j = idx
    · subst same
      refine List.filter_eq_nil_iff.mpr fun message member => ?_
      have sender := deliveries.senders message member
      simp only [put_same, decide_eq_true_eq, not_and]
      intro equal
      rw [show message.handle = handle from equal, index] at sender
      exact absurd sender unborn
    · simp only [State.Complete, State.sentTo, put_other same] at quiet ⊢
      exact deliveries.silent j (before same created) id other quiet
  · by_cases same : j = idx
    · exact absurd (same ▸ due.1) pending
    · simp only [State.Complete, State.sentTo, put_other same] at due ⊢
      exact deliveries.delivered j (before same created) id other due

theorem wait (deliveries : s.Deliveries) {idx : Nat} (id : CoreId) (shown : ¬ s.Unfinished idx)
    (pending : ¬ s.Complete idx) (created : s.Created idx) :
    State.Deliveries { s with
      table := put s.table idx
        { s.table idx with waiters := fun id' => id' = id || (s.table idx).waiters id' }
      history := { s.history with
        waited := put s.history.waited idx fun id' => id' = id || s.history.waited idx id' } } := by
  refine
    { unborn := fun j absent => ?_
      unseen := fun pIdx phase => ?_
      handles := fun j made => ?_
      senders := deliveries.senders
      waiting := fun j made pending' id' => ?_
      cleared := fun j made complete id' => ?_
      silent := fun j made id' other quiet => ?_
      delivered := fun j made id' other due => ?_ }
  · have differs : j ≠ idx := fun same => absent (same ▸ created)
    simpa only [put_other differs] using deliveries.unborn j absent
  · have differs : pIdx ≠ idx := fun same => shown (.inl (same ▸ phase))
    simpa only [put_other differs] using deliveries.unseen pIdx phase
  · by_cases same : j = idx
    · subst same
      simpa only [put_same] using deliveries.handles j made
    · simpa only [put_other same] using deliveries.handles j made
  · by_cases same : j = idx
    · subst same
      simp only [put_same, deliveries.waiting j made pending id']
    · simp only [State.Complete, put_other same] at pending' ⊢
      exact deliveries.waiting j made pending' id'
  · by_cases same : j = idx
    · subst same
      simp only [State.Complete, put_same] at complete
      exact absurd complete pending
    · simp only [State.Complete, put_other same] at complete ⊢
      exact deliveries.cleared j made complete id'
  · by_cases same : j = idx
    · subst same
      simp only [State.sentTo, put_same]
      exact deliveries.silent j made id' other fun both => pending both.1
    · simp only [State.Complete, State.sentTo, put_other same] at quiet ⊢
      exact deliveries.silent j made id' other quiet
  · by_cases same : j = idx
    · subst same
      simp only [State.Complete, put_same] at due
      exact absurd due.1 pending
    · simp only [State.Complete, State.sentTo, put_other same] at due ⊢
      exact deliveries.delivered j made id' other due

theorem more (deliveries : s.Deliveries) {idx k : Nat} {obj : Coredata} {activity : Activity}
    {notified : Nat → List Nat} (pending : ¬ s.Complete idx) (children : obj.numChild ≠ 0)
    (handle : obj.handle = (s.table idx).handle) (waiters : obj.waiters = (s.table idx).waiters) :
    State.Deliveries { s with
      table := put s.table idx obj
      running := s.running.set k activity
      history := { s.history with notified := notified, sent := s.history.sent ++ [] } } := by
  refine
    { unborn := deliveries.unborn
      unseen := deliveries.unseen
      handles := fun j made => ?_
      senders := fun message member => deliveries.senders message (by simpa using member)
      waiting := fun j made pending' id => ?_
      cleared := fun j made complete id => ?_
      silent := fun j made id other quiet => ?_
      delivered := fun j made id other due => ?_ }
  · by_cases same : j = idx
    · subst same
      simp only [put_same, handle]
      exact deliveries.handles j made
    · simpa only [put_other same] using deliveries.handles j made
  · by_cases same : j = idx
    · subst same
      simp only [put_same, waiters]
      exact deliveries.waiting j made pending id
    · simp only [State.Complete, put_other same] at pending' ⊢
      exact deliveries.waiting j made pending' id
  · by_cases same : j = idx
    · subst same
      simp only [State.Complete, put_same] at complete
      exact absurd complete.1 children
    · simp only [State.Complete, put_other same] at complete ⊢
      exact deliveries.cleared j made complete id
  · by_cases same : j = idx
    · subst same
      simp only [State.sentTo, put_same, handle, List.append_nil]
      exact deliveries.silent j made id other fun both => pending both.1
    · simp only [State.Complete, State.sentTo, put_other same, List.append_nil] at quiet ⊢
      exact deliveries.silent j made id other quiet
  · by_cases same : j = idx
    · subst same
      simp only [State.Complete, put_same] at due
      exact absurd due.1.1 children
    · simp only [State.Complete, State.sentTo, put_other same, List.append_nil] at due ⊢
      exact deliveries.delivered j made id other due

theorem ends (deliveries : s.Deliveries) {idx k status : Nat} {obj : Coredata}
    {activity : Activity} {notified : Nat → List Nat} {given : Nat → Option Nat}
    (signaled : Signaled) (created : s.Created idx) (pending : ¬ s.Complete idx)
    (complete : obj.numChild = 0 ∧ obj.status ≠ SYNX_STATE_ACTIVE)
    (handle : obj.handle = (s.table idx).handle)
    (data : signaled.data = (obj.handle, obj.status))
    (wakes : signaled.waitCores = (s.table idx).waiters)
    (waiters : obj.waiters = fun _ => false) :
    State.Deliveries { s with
      table := put s.table idx obj
      running := s.running.set k activity
      history := { s.history with
        notified := notified
        given := given
        sent := s.history.sent ++ signaled.messages status } } := by
  have index : handleIndex obj.handle = idx := handle ▸ deliveries.handles idx created
  have signals : signaled.data ≠ (0, 0) := fun zero => by
    rw [data] at zero
    rw [(Prod.mk.inj zero).1] at index
    exact created.1 index.symm
  -- the new messages are about this object only
  have others : ∀ j, s.Created j → j ≠ idx → ∀ id,
      (s.history.sent ++ signaled.messages status).filter (fun message =>
        message.handle = (s.table j).handle ∧ message.core = id) = s.sentTo j id :=
    fun j made differs id => by
      rw [List.filter_append, filter_messages signals, if_neg, List.append_nil]
      · rfl
      · rintro ⟨equal, -⟩
        rw [data] at equal
        exact differs ((deliveries.handles j made).symm.trans ((congrArg _ equal.symm).trans index))
  have own : ∀ id, id ≠ .apss →
      (s.history.sent ++ signaled.messages status).filter (fun message =>
        message.handle = obj.handle ∧ message.core = id) =
        if s.history.waited idx id = true then [⟨id, obj.handle, obj.status⟩] else [] :=
    fun id other => by
      have before := deliveries.silent idx created id other fun both => pending both.1
      rw [State.sentTo, ← handle] at before
      rw [List.filter_append, before, filter_messages signals, List.nil_append, data, wakes,
        deliveries.waiting idx created pending]
      simp only [true_and, other, ne_eq, not_false_eq_true, or_true, and_true]
  refine
    { unborn := deliveries.unborn
      unseen := deliveries.unseen
      handles := fun j made => ?_
      senders := fun message member => ?_
      waiting := fun j made pending' id => ?_
      cleared := fun j made done id => ?_
      silent := fun j made id other quiet => ?_
      delivered := fun j made id other due => ?_ }
  · by_cases same : j = idx
    · subst same
      simpa only [put_same] using index
    · simpa only [put_other same] using deliveries.handles j made
  · rcases List.mem_append.mp member with old | new
    · exact deliveries.senders message old
    · rw [Signaled.messages, if_neg signals] at new
      obtain ⟨id, -, rfl⟩ := List.mem_map.mp new
      simp only [data, index]
      exact created
  · by_cases same : j = idx
    · subst same
      simp only [State.Complete, put_same] at pending'
      exact absurd complete pending'
    · simp only [State.Complete, put_other same] at pending' ⊢
      exact deliveries.waiting j made pending' id
  · by_cases same : j = idx
    · subst same
      simp only [put_same, waiters]
    · simp only [State.Complete, put_other same] at done ⊢
      exact deliveries.cleared j made done id
  · by_cases same : j = idx
    · subst same
      simp only [State.Complete, State.sentTo, put_same] at quiet ⊢
      exact (own id other).trans (if_neg fun asked => quiet ⟨complete, asked⟩)
    · simp only [State.Complete, State.sentTo, put_other same] at quiet ⊢
      exact (others j made same id).trans (deliveries.silent j made id other quiet)
  · by_cases same : j = idx
    · subst same
      simp only [State.Complete, State.sentTo, put_same] at due ⊢
      exact (own id other).trans (if_pos due.2)
    · simp only [State.Complete, State.sentTo, put_other same] at due ⊢
      exact (others j made same id).trans (deliveries.delivered j made id other due)

theorem signal (deliveries : s.Deliveries) (inv : s.Inv) {k : Nat} {note : Note}
    {notes : List Note} (here : s.running[k]? = some (.signaling (note :: notes)))
    (due : note.Due s) :
    State.Deliveries { (s.signal note).1 with
      running := s.running.set k (.signaling ((s.signal note).2 ++ notes)) } := by
  obtain ⟨idx, status, child⟩ := note
  have signals := (inv.sound_of_get here ⟨idx, status, child⟩ (List.mem_cons_self ..)).1
  cases child with
  | none =>
    obtain ⟨none, active⟩ := updateStatusCheck_proceed due
    have leaf := updateStatusLocked_leaf status none
    simp only [State.signal, leaf, Bool.false_eq_true, if_false]
    exact deliveries.ends ⟨_, false, _, _, _⟩ (inv.created_of_active active)
      (fun complete => complete.2 active) ⟨none, Nat.ne_of_gt signals⟩ rfl rfl rfl rfl
  | some child =>
    obtain ⟨merged, children⟩ := inv.pending_of_note here due
    have created : s.Created idx := inv.phased idx (by simp [merged])
    have pending : ¬ s.Complete idx := fun complete => children complete.1
    have refs := inv.refs idx created
    rw [if_neg children] at refs
    by_cases last : (s.table idx).numChild = 1
    · have locked := updateStatusLocked_last status last refs
      simp only [State.signal, locked, Bool.false_eq_true, if_false]
      exact deliveries.ends ⟨_, false, _, _, _⟩ created pending
        ⟨rfl, mergedStatus_ne_active signals⟩ rfl rfl rfl rfl
    · have locked := updateStatusLocked_more status children last
      have left : (s.table idx).numChild - 1 ≠ 0 := by omega
      simp only [State.signal, locked, Bool.false_eq_true, if_false]
      exact deliveries.more pending left rfl rfl

theorem change (deliveries : s.Deliveries) (inv : s.Inv)
    (change : Change s (Note.Due s) s') : s'.Deliveries := by
  cases change with
  | stay => exact deliveries
  | create valid index free made =>
    obtain rfl := initCoredata_eq made
    exact deliveries.create index free
  | refuse _ free refused =>
    refine absurd refused ((inv.clean _ fun created => ?_).init_ne_none _)
    rw [created.2] at free
    cases free
  | wait id shown pending =>
    exact deliveries.wait id shown pending (Decidable.by_contra fun absent => pending
      ⟨(inv.clean _ absent).numChild, by
        simp [(inv.clean _ absent).status, SYNX_STATE_ACTIVE]⟩)
  | update =>
    exact deliveries.of_same rfl rfl rfl deliveries.unseen
      fun _ => ⟨rfl, rfl, .inr ⟨Iff.rfl, rfl⟩⟩
  | @merge idxList pIdx fresh =>
    refine deliveries.of_same rfl rfl rfl (fun q phase id => ?_)
      fun _ => ⟨rfl, rfl, .inr ⟨Iff.rfl, rfl⟩⟩
    by_cases same : q = pIdx
    · exact same ▸ fresh.unawaited id id.mem_all
    · exact deliveries.unseen q (by simpa only [put_other same] using phase) id
  | signal here due => exact deliveries.signal inv here due
  | @link k idx work rest here next free =>
    simp only [State.link, free, if_true]
    refine deliveries.of_same rfl rfl rfl deliveries.unseen fun j => ?_
    by_cases same : j = idx
    · subst same
      simp [State.Complete, linkParent]
    · simp [State.Complete, put_other same]
  | @fail k work numChild here =>
    refine deliveries.of_same rfl rfl rfl (fun q phase id => ?_)
      fun _ => ⟨rfl, rfl, .inr ⟨Iff.rfl, rfl⟩⟩
    by_cases same : q = work.pIdx
    · simp [same] at phase
    · exact deliveries.unseen q (by simpa only [put_other same] using phase) id
  | @add k work here last =>
    have sound := inv.sound_of_get here
    refine deliveries.of_same rfl rfl rfl (fun q phase id => ?_) fun j => ?_
    · by_cases same : q = work.pIdx
      · exact same ▸ deliveries.unseen work.pIdx sound.phase id
      · exact deliveries.unseen q (by simpa only [State.add, put_other same] using phase) id
    · by_cases same : j = work.pIdx
      · subst same
        simp only [State.add, put_same, addChildren]
        exact ⟨trivial, trivial, .inl (deliveries.unseen work.pIdx sound.phase)⟩
      · simp [State.Complete, State.add, put_other same]
  | @unlink k pIdx numChild idxList idx here =>
    refine deliveries.of_same rfl rfl rfl deliveries.unseen fun j => ?_
    by_cases same : j = idx
    · subst same
      simp [State.Complete, unlinkParent]
    · simp [State.Complete, put_other same]

theorem initial : State.initial.Deliveries where
  unborn := fun _ _ _ => rfl
  unseen := fun _ phase => nomatch phase
  handles := fun _ created => absurd (beq_iff_eq.mp created.2) created.1
  senders := fun _ member => nomatch member
  waiting := fun _ created => absurd (beq_iff_eq.mp created.2) created.1
  cleared := fun _ created => absurd (beq_iff_eq.mp created.2) created.1
  silent := fun _ created => absurd (beq_iff_eq.mp created.2) created.1
  delivered := fun _ created => absurd (beq_iff_eq.mp created.2) created.1

end State.Deliveries

end VendorModules.Synx
