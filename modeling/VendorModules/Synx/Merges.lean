import VendorModules.Synx.Invariant

namespace VendorModules.Synx

open Lib

variable {s : State}

/-! The sections of a merge keep the invariant. -/

theorem countMember_eq (numChild idx : Nat) :
    countMember numChild (s.table idx) = if s.Complete idx then numChild else numChild + 1 := by
  by_cases active : (s.table idx).status = SYNX_STATE_ACTIVE
  · simp [countMember, State.Complete, active]
  · by_cases children : (s.table idx).numChild = 0
    · simp [countMember, State.Complete, active, children]
    · simp [countMember, State.Complete, active, children]

theorem statusWith_active {parentStatus : Nat} {obj : Coredata}
    (active : statusWith parentStatus obj = SYNX_STATE_ACTIVE) :
    parentStatus = SYNX_STATE_ACTIVE ∧ obj.status = SYNX_STATE_ACTIVE := by
  unfold statusWith at active
  split at active
  · exact ⟨active, ‹_›⟩
  · split at active
    · exact absurd active ‹_›
    · split at active
      · exact absurd active ‹_›
      · exact absurd active ‹_›

namespace State.Inv

section Merge

variable {k : Nat} {work : Merging}

theorem link (inv : s.Inv) {idx : Nat} {rest : List Nat}
    (here : s.running[k]? = some (.merging work)) (next : work.rest = idx :: rest)
    (free : hasFreeSlot (s.table idx) = true) :
    State.Inv { (s.link work idx rest).1 with
      running := s.running.set k (s.link work idx rest).2 } := by
  have sound := inv.sound_of_get here
  have published : s.Published idx := sound.published idx (by simp [next])
  have grouped : s.Grouped work.pIdx := .inl sound.phase
  have nonzero : work.pIdx ≠ 0 := inv.ne_zero grouped.ne_plain
  have apart : idx ≠ work.pIdx := fun same => published.2 (.inl (same ▸ sound.phase))
  have vacant : 0 ∈ (s.table idx).parents.slots := by simpa [hasFreeSlot] using free
  have counts := countMember_eq (s := s) work.numChild idx
  simp only [State.link, free, if_true]
  have statusSame : ∀ j, State.Complete
      { s with table := put s.table idx (linkParent (s.table idx) work.pIdx) } j ↔
      s.Complete j := fun j => by
    by_cases same : j = idx
    · subst same
      simp [State.Complete, linkParent]
    · simp only [State.Complete, put_other same]
  have slotsCount : ∀ q, q ≠ 0 → ∀ j,
      (put s.table idx (linkParent (s.table idx) work.pIdx) j).parents.slots.count q =
        (s.table j).parents.slots.count q + if j = idx ∧ q = work.pIdx then 1 else 0 := by
    intro q positive j
    by_cases same : j = idx
    · subst same
      rw [put_same]
      by_cases target : q = work.pIdx
      · rw [if_pos ⟨rfl, target⟩, target]
        exact count_replace_new vacant nonzero
      · rw [if_neg fun both => target both.2]
        exact count_replace_other positive target
    · rw [put_other same, if_neg fun both => same both.1, Nat.add_zero]
  refine
    { reserved := inv.reserved
      clean := ?_
      valid := inv.valid
      phased := inv.phased
      refs := ?_
      plain := ?_
      slotted := ?_
      linked := ?_
      tally := ?_
      published := ?_
      counted := ?_
      settled := ?_
      leaf := ?_
      hidden := ?_
      sound := ?_
      targets := inv.targets_set here (.inl rfl) }
  · intro j absent
    have differs : j ≠ idx := fun same => absent (same ▸ published.1)
    simpa only [put_other differs] using inv.clean j absent
  · intro j created
    have before := inv.refs j created
    by_cases same : j = idx
    · subst same
      simpa only [put_same, linkParent] using before
    · simpa only [put_other same] using before
  · intro j plain
    have differs : j ≠ work.pIdx := fun same =>
      grouped.ne_plain (same ▸ plain)
    have before := inv.plain j plain
    refine ⟨(put_other differs).trans before.1, ?_⟩
    split
    · exact (put_other differs).trans before.2
    · exact before.2
  · intro j q member positive
    by_cases same : j = idx
    · subst same
      simp only [put_same] at member
      rcases mem_replace member with target | old
      · exact target ▸ grouped.ne_plain
      · exact inv.slotted j q old positive
    · simp only [put_other same] at member
      exact inv.slotted j q member positive
  · intro q grouped' j
    have counted := slotsCount q (inv.ne_zero (State.Grouped.ne_plain grouped')) j
    have before := inv.linked q grouped' j
    by_cases target : q = work.pIdx
    · subst target
      simp only [put_same, List.count_append, List.count_singleton, counted, before,
        and_true, beq_iff_eq, eq_comm (a := idx)]
    · simp only [put_other target, counted, before, target, and_false, if_false, Nat.add_zero]
  · intro q grouped'
    have before := inv.tally q grouped'
    refine @Tally.congr _ _ _ _ (s.inFlight q) _ s.Complete _ _ _ ?_
      (fun child => inFlight_set_same here rfl rfl) fun child _ => statusSame child
    by_cases target : q = work.pIdx
    · subst target
      by_cases complete : s.Complete idx
      · rw [if_pos complete] at counts
        simp only [counts, if_true, put_same]
        exact before.joinEnded complete
      · rw [if_neg complete] at counts
        simp only [counts, Nat.succ_ne_self, if_false, put_same]
        exact before.join complete
    · simp only [put_other target]
      split
      · simpa only [put_other target] using before
      · exact before
  · intro q grouped' j member
    by_cases target : q = work.pIdx
    · subst target
      simp only [put_same] at member
      rcases List.mem_append.mp member with old | new
      · exact inv.published _ grouped j old
      · exact List.mem_singleton.mp new ▸ published
    · simp only [put_other target] at member
      exact inv.published q grouped' j member
  · intro q merged
    have differs : q ≠ work.pIdx := fun same =>
      absurd ((same ▸ sound.phase).symm.trans merged) (by simp)
    have before := inv.counted q merged
    have lists : ∀ (notified : Nat → List Nat), notified q = s.history.notified q →
        (put s.table idx (linkParent (s.table idx) work.pIdx) q).numChild +
          (notified q).length = (s.history.members q).length := fun notified same => by
      rw [same]
      by_cases linked : q = idx
      · subst linked
        rw [put_same]
        exact before
      · rw [put_other linked]
        exact before
    simp only [put_other differs]
    refine lists _ ?_
    split
    · exact put_other differs
    · rfl
  · intro q merged
    have before := inv.settled q merged
    by_cases same : q = idx
    · subst same
      simpa only [put_same, linkParent] using before
    · simpa only [put_other same] using before
  · intro j phase
    have before := inv.leaf j phase
    by_cases same : j = idx
    · subst same
      simpa only [put_same, linkParent] using before
    · simpa only [put_other same] using before
  · intro q phase
    have differs : q ≠ idx := fun same => published.2 (.inl (same ▸ phase))
    simpa only [put_other differs] using inv.hidden q phase
  · refine inv.sound_set here ?_ fun other _ distinct sound' => ?_
    · refine
        { phase := sound.phase
          members := by simp only [put_same, sound.members]
          counted := ?_
          active := ?_
          published := fun j member => sound.published j (by simp [next, member])
          nonempty := by simp [Merging.idxList] }
      · have before := sound.counted
        split at counts
        · simp only [counts, if_true, put_same, List.length_append, List.length_singleton]
          omega
        · simp only [counts, Nat.succ_ne_self, if_false, List.length_append,
            List.length_singleton]
          omega
      · intro active
        obtain ⟨first, second⟩ := statusWith_active active
        have pending : ¬ s.Complete idx := fun complete => complete.2 second
        rw [if_neg pending] at counts
        rw [List.length_append, List.length_singleton, ← sound.active first]
        exact counts
    · cases other with
      | signaling notes => exact sound'
      | merging work' =>
        have differs : work'.pIdx ≠ work.pIdx := fun same =>
          distinct work'.pIdx rfl (congrArg some same.symm)
        refine
          { sound' with
            members := (put_other differs).trans sound'.members
            counted := ?_ }
        have before := sound'.counted
        split
        · simpa only [put_other differs] using before
        · exact before
      | undoing idxList q numChild => exact sound'

theorem fail (inv : s.Inv) {numChild : Nat} (here : s.running[k]? = some (.merging work)) :
    State.Inv { s with
      running := s.running.set k (.undoing work.idxList work.pIdx numChild)
      history := { s.history with phase := put s.history.phase work.pIdx .failed } } := by
  have sound := inv.sound_of_get here
  have other : ∀ {q phase}, put s.history.phase work.pIdx .failed q = phase → phase ≠ .failed →
      q ≠ work.pIdx ∧ s.history.phase q = phase := fun {q phase} now differs => by
    by_cases same : q = work.pIdx
    · rw [same, put_same] at now
      exact absurd now.symm differs
    · exact ⟨same, (put_other same).symm.trans now⟩
  have grouped : ∀ {q}, (put s.history.phase work.pIdx .failed q = .merging ∨
      put s.history.phase work.pIdx .failed q = .merged) → s.Grouped q := fun
    | .inl now => .inl (other now (by simp)).2
    | .inr now => .inr (other now (by simp)).2
  have unfinished : ∀ {j}, (put s.history.phase work.pIdx .failed j = .merging ∨
      put s.history.phase work.pIdx .failed j = .failed) → s.Unfinished j := fun {j} now => by
    by_cases same : j = work.pIdx
    · exact .inl (same ▸ sound.phase)
    · rwa [put_other same] at now
  have published : ∀ {j}, s.Published j → State.Published
      { s with history := { s.history with phase := put s.history.phase work.pIdx .failed } } j :=
    fun before => ⟨before.1, fun now => before.2 (unfinished now)⟩
  refine
    { inv with
      phased := ?_
      plain := fun j plain => inv.plain j (other plain (by simp)).2
      slotted := ?_
      linked := fun q now => inv.linked q (grouped now)
      tally := ?_
      published := fun q now j member => published (inv.published q (grouped now) j member)
      counted := fun q merged => inv.counted q (other merged (by simp)).2
      settled := fun q merged => inv.settled q (other merged (by simp)).2
      leaf := ?_
      hidden := fun q phase => inv.hidden q (other phase (by simp)).2
      sound := ?_
      targets := inv.targets_set here (.inr rfl) }
  · intro j phase
    by_cases same : j = work.pIdx
    · exact inv.phased j (by simp [same, sound.phase])
    · exact inv.phased j (by simpa only [put_other same] using phase)
  · intro j q member positive
    by_cases same : q = work.pIdx
    · subst same
      simp
    · simpa only [put_other same] using inv.slotted j q member positive
  · intro q now
    exact (inv.tally q (grouped now)).congr (fun child => inFlight_set_same here rfl rfl)
      fun _ _ => Iff.rfl
  · intro j phase
    by_cases same : j = work.pIdx
    · exact inv.leaf j (by simp [same, sound.phase])
    · exact inv.leaf j (by simpa only [put_other same] using phase)
  · refine inv.sound_set here put_same fun activity _ distinct before => ?_
    cases activity with
    | signaling notes =>
      intro note held
      have kept := before note held
      refine ⟨kept.1, ?_⟩
      have rest := kept.2
      split at rest
      · exact fun now => rest (unfinished now)
      · exact fun plain => rest (other plain (by simp)).2
    | merging work' =>
      have differs : work'.pIdx ≠ work.pIdx := fun same =>
        distinct work'.pIdx rfl (congrArg some same.symm)
      exact
        { before with
          phase := (put_other differs).trans before.phase
          published := fun j member => published (before.published j member) }
    | undoing idxList q count =>
      by_cases same : q = work.pIdx
      · exact same ▸ put_same
      · exact (put_other same).trans before

theorem length_members_lt (inv : s.Inv) {pIdx : Nat} (grouped : s.Grouped pIdx) :
    (s.history.members pIdx).length < 2 ^ 16 := by
  have bounded : (s.history.members pIdx).length ≤
      SYNX_GLOBAL_MAX_OBJS * SYNX_GLOBAL_MAX_PARENTS :=
    length_le_mul_of_count_le
      (fun idx member => inv.valid idx (inv.published pIdx grouped idx member).1)
      fun idx => by
        rw [← inv.linked pIdx grouped idx, ← (s.table idx).parents.size]
        exact List.count_le_length
  simp only [SYNX_GLOBAL_MAX_OBJS, SYNX_GLOBAL_MAX_PARENTS] at bounded
  omega

/-- The count is added when all members are linked; nothing has been linked to the
parent yet. -/
theorem add (inv : s.Inv) (here : s.running[k]? = some (.merging work))
    (last : work.rest = []) :
    State.Inv { s.add work with running := s.running.set k (.signaling []) } := by
  have sound := inv.sound_of_get here
  have grouped : s.Grouped work.pIdx := .inl sound.phase
  have created := inv.phased work.pIdx grouped.ne_plain
  have none := inv.leaf work.pIdx (by simp [sound.phase])
  have whole : work.linked ≠ [] := by
    have nonempty := sound.nonempty
    rwa [Merging.idxList, last, List.append_nil] at nonempty
  have counts : ((s.table work.pIdx).numChild + work.numChild) % 2 ^ 16 = work.numChild := by
    have fits := inv.length_members_lt grouped
    have counted := sound.counted
    rw [sound.members] at fits
    rw [none, Nat.zero_add]
    exact Nat.mod_eq_of_lt (by omega)
  have before : ∀ {q}, (put s.history.phase work.pIdx .merged q = .merging ∨
      put s.history.phase work.pIdx .merged q = .merged) → s.Grouped q := fun {q} now => by
    by_cases same : q = work.pIdx
    · exact same ▸ grouped
    · rwa [put_other same] at now
  have other : ∀ {q phase}, put s.history.phase work.pIdx .merged q = phase → phase ≠ .merged →
      q ≠ work.pIdx ∧ s.history.phase q = phase := fun {q phase} now differs => by
    by_cases same : q = work.pIdx
    · rw [same, put_same] at now
      exact absurd now.symm differs
    · exact ⟨same, (put_other same).symm.trans now⟩
  have unfinished : ∀ {j}, (put s.history.phase work.pIdx .merged j = .merging ∨
      put s.history.phase work.pIdx .merged j = .failed) → s.Unfinished j := fun
    | .inl now => .inl (other now (by simp)).2
    | .inr now => .inr (other now (by simp)).2
  have outside : ∀ {q}, s.Grouped q → work.pIdx ∉ s.history.members q :=
    fun grouped' member => (inv.published _ grouped' _ member).2 (.inl sound.phase)
  have slotsSame : ∀ j, (put s.table work.pIdx (addChildren (s.table work.pIdx) work) j).parents =
      (s.table j).parents := fun j => by
    by_cases same : j = work.pIdx
    · rw [same, put_same]
      rfl
    · rw [put_other same]
  refine
    { reserved := inv.reserved
      clean := ?_
      valid := inv.valid
      phased := ?_
      refs := ?_
      plain := fun j plain => inv.plain j (other plain (by simp)).2
      slotted := ?_
      linked := fun q now j => by
        simpa only [State.add, slotsSame j] using inv.linked q (before now) j
      tally := ?_
      published := fun q now j member =>
        have kept := inv.published q (before now) j member
        ⟨kept.1, fun now => kept.2 (unfinished now)⟩
      counted := ?_
      settled := ?_
      leaf := ?_
      hidden := fun q phase => by
        simpa only [State.add, slotsSame q] using inv.hidden q (other phase (by simp)).2
      sound := ?_
      targets := inv.targets_set here (.inr rfl) }
  · intro j absent
    have differs : j ≠ work.pIdx := fun same => absent (same ▸ created)
    simpa only [State.add, put_other differs] using inv.clean j absent
  · intro j phase
    by_cases same : j = work.pIdx
    · exact same ▸ created
    · exact inv.phased j (by simpa only [State.add, put_other same] using phase)
  · intro j created'
    have refs := inv.refs j created'
    by_cases same : j = work.pIdx
    · subst same
      rw [none, if_pos rfl] at refs
      simp only [State.add, put_same, addChildren, counts, refs, incr16]
      by_cases children : work.numChild = 0
      · simp [children]
      · simp [children]
    · simpa only [State.add, put_other same] using refs
  · intro j q member positive
    simp only [State.add, slotsSame j] at member
    by_cases same : q = work.pIdx
    · subst same
      simp [State.add]
    · simpa only [State.add, put_other same] using inv.slotted j q member positive
  · intro q now
    refine (inv.tally q (before now)).congr (fun child => inFlight_set_same here rfl rfl)
      fun child member => ?_
    have differs : child ≠ work.pIdx := fun same => outside (before now) (same ▸ member)
    simp only [State.Complete, State.add, put_other differs]
  · intro q merged
    by_cases same : q = work.pIdx
    · subst same
      simp only [State.add, put_same, addChildren, counts, sound.members]
      exact sound.counted
    · simp only [State.add, put_other same] at merged ⊢
      exact inv.counted q merged
  · intro q merged
    by_cases same : q = work.pIdx
    · subst same
      simp only [State.add, put_same, addChildren, counts]
      intro children active
      rw [sound.active active] at children
      exact whole (List.length_eq_zero_iff.mp children)
    · simp only [State.add, put_other same] at merged ⊢
      exact inv.settled q merged
  · intro j phase
    have differs : j ≠ work.pIdx := fun same => phase (by rw [same]; exact put_same)
    simp only [State.add, put_other differs] at phase ⊢
    exact inv.leaf j phase
  · refine inv.sound_set here (fun note member => nomatch member) fun activity _ distinct kept => ?_
    cases activity with
    | signaling notes =>
      intro note held
      refine ⟨(kept note held).1, ?_⟩
      have shown := (kept note held).2
      split at shown
      · exact fun now => shown (unfinished now)
      · exact fun plain => shown (other plain (by simp)).2
    | merging work' =>
      have differs : work'.pIdx ≠ work.pIdx := fun same =>
        distinct work'.pIdx rfl (congrArg some same.symm)
      exact
        { kept with
          phase := (put_other differs).trans kept.phase
          published := fun j member => ⟨(kept.published j member).1, fun now =>
            (kept.published j member).2 (unfinished now)⟩ }
    | undoing idxList q count =>
      have differs : q ≠ work.pIdx := fun same =>
        absurd ((same ▸ sound.phase).symm.trans kept) (by simp)
      exact (put_other differs).trans kept

theorem unlink (inv : s.Inv) {idxList : List Nat} {pIdx numChild : Nat} (idx : Nat)
    (here : s.running[k]? = some (.undoing idxList pIdx (numChild + 1))) :
    State.Inv { s with
      table := put s.table idx (unlinkParent (s.table idx) pIdx)
      running := s.running.set k (.undoing idxList pIdx numChild) } := by
  have failed : s.history.phase pIdx = .failed := inv.sound_of_get here
  have nonzero : pIdx ≠ 0 := inv.ne_zero (by simp [failed])
  have same : ∀ j, ∃ parents, put s.table idx (unlinkParent (s.table idx) pIdx) j =
      { s.table j with parents := parents } ∧
      (∀ q, q ≠ 0 → q ≠ pIdx → parents.slots.count q = (s.table j).parents.slots.count q) ∧
      (∀ q ∈ parents.slots, q ≠ 0 → q ∈ (s.table j).parents.slots) ∧
      ((s.table j).parents.slots = Parents.none.slots → parents.slots = Parents.none.slots) := by
    intro j
    by_cases equal : j = idx
    · subst equal
      refine ⟨_, put_same, fun q positive other => count_replace_other other positive,
        fun q member positive => (mem_replace member).resolve_left positive, fun clear => ?_⟩
      change (s.table j).parents.slots.replace pIdx 0 = _
      rw [clear]
      exact List.replace_of_not_mem (by simpa [Parents.none] using nonzero)
    · exact ⟨(s.table j).parents, put_other equal, fun _ _ _ => rfl, fun _ member _ => member, id⟩
  have apart : ∀ {q}, s.Grouped q → q ≠ pIdx := fun grouped equal => by
    subst equal
    rcases grouped with phase | phase <;> simp [phase] at failed
  refine
    { reserved := inv.reserved
      clean := ?_
      valid := inv.valid
      phased := inv.phased
      refs := ?_
      plain := inv.plain
      slotted := ?_
      linked := ?_
      tally := ?_
      published := inv.published
      counted := ?_
      settled := ?_
      leaf := ?_
      hidden := ?_
      sound := ?_
      targets := inv.targets_set here (.inl rfl) }
  · intro j absent
    obtain ⟨parents, equal, -, -, clear⟩ := same j
    have clean := inv.clean j absent
    simp only [equal]
    exact { clean with slots := clear clean.slots }
  · intro j created
    obtain ⟨parents, equal, -⟩ := same j
    simpa only [equal] using inv.refs j created
  · intro j q member positive
    obtain ⟨parents, equal, -, slotted, -⟩ := same j
    simp only [equal] at member
    exact inv.slotted j q (slotted q member positive) positive
  · intro q grouped j
    obtain ⟨parents, equal, counts, -⟩ := same j
    simp only [equal]
    rw [counts q (inv.ne_zero (State.Grouped.ne_plain grouped)) (apart grouped)]
    exact inv.linked q grouped j
  · intro q grouped
    refine (inv.tally q grouped).congr (fun child => inFlight_set_same here rfl rfl)
      fun child _ => ?_
    obtain ⟨parents, equal, -⟩ := same child
    simp only [State.Complete, equal]
  · intro q
    obtain ⟨parents, equal, -⟩ := same q
    simpa only [equal] using inv.counted q
  · intro q
    obtain ⟨parents, equal, -⟩ := same q
    simpa only [equal] using inv.settled q
  · intro j
    obtain ⟨parents, equal, -⟩ := same j
    simpa only [equal] using inv.leaf j
  · intro q phase
    obtain ⟨parents, equal, -, -, clear⟩ := same q
    simp only [equal]
    exact clear (inv.hidden q phase)
  · refine inv.sound_set here failed fun activity _ _ kept => ?_
    cases activity with
    | signaling notes => exact kept
    | merging work => exact { kept with }
    | undoing idxList q count => exact kept

end Merge

end State.Inv

end VendorModules.Synx
