import VendorModules.Synx.Invariant

namespace VendorModules.Synx

open Lib

variable {s : State}

/-! Updates and notifications keep the invariant. -/

theorem updateStatusCheck_proceed {obj : Coredata} (check : updateStatusCheck obj = .proceed) :
    obj.numChild = 0 ∧ obj.status = SYNX_STATE_ACTIVE := by
  unfold updateStatusCheck at check
  split at check
  · cases check
  · split at check
    · cases check
    · exact ⟨Decidable.not_not.mp ‹_›, Decidable.not_not.mp ‹_›⟩

theorem mergedStatus_ne_active {own status : Nat} (signals : SYNX_STATE_ACTIVE < status) :
    mergedStatus own status ≠ SYNX_STATE_ACTIVE := by
  unfold mergedStatus
  split
  · exact Nat.ne_of_gt signals
  · rename_i kept
    exact fun active => kept (.inl active)

section Locked

variable {obj : Coredata}

theorem updateStatusLocked_leaf (status : Nat) (leaf : obj.numChild = 0) :
    updateStatusLocked obj status =
      { obj := { obj with status := status, waiters := fun _ => false }
        clear := false
        data := (obj.handle, status)
        waitCores := obj.waiters
        hParents := obj.parents.slots } := by
  simp [updateStatusLocked, leaf]

theorem updateStatusLocked_more (status : Nat) (children : obj.numChild ≠ 0) (more : obj.numChild ≠ 1) :
    updateStatusLocked obj status =
      { obj := { obj with
          numChild := obj.numChild - 1
          status := mergedStatus obj.status status }
        clear := false
        data := (0, 0)
        waitCores := fun _ => false
        hParents := [] } := by
  have left : obj.numChild - 1 ≠ 0 := by omega
  simp [updateStatusLocked, children, left]

theorem updateStatusLocked_last (status : Nat) (last : obj.numChild = 1) (refs : obj.refcount = 2) :
    updateStatusLocked obj status =
      { obj := { obj with
          numChild := 0
          status := mergedStatus obj.status status
          waiters := fun _ => false
          refcount := 1 }
        clear := false
        data := (obj.handle, mergedStatus obj.status status)
        waitCores := obj.waiters
        hParents := obj.parents.slots } := by
  simp [updateStatusLocked, last, refs, decr16]

end Locked

namespace State.Inv

section Signal

variable {k status : Nat} {note : Note} {notes : List Note} {given : Nat → Option Nat}
  {sent : List Message}

theorem sound_notesFor (inv : s.Inv) {idx : Nat} (signals : SYNX_STATE_ACTIVE < status) :
    ∀ note ∈ notesFor idx status (s.table idx).parents.slots, note.Sound s := by
  intro note member
  obtain ⟨pIdx, taken, rfl⟩ := List.mem_map.mp member
  obtain ⟨slot, positive⟩ := List.mem_filter.mp taken
  exact ⟨signals, inv.slotted idx pIdx slot (by simpa using positive)⟩

theorem signalLeaf (inv : s.Inv) {idx : Nat}
    (here : s.running[k]? = some (.signaling (⟨idx, status, none⟩ :: notes)))
    (check : updateStatusCheck (s.table idx) = .proceed) :
    State.Inv { s with
      table := put s.table idx { s.table idx with status := status, waiters := fun _ => false }
      running := s.running.set k
        (.signaling (notesFor idx status (s.table idx).parents.slots ++ notes))
      history := { s.history with given := given, sent := sent } } := by
  obtain ⟨none, active⟩ := updateStatusCheck_proceed check
  have held := inv.sound_of_get here
  obtain ⟨signals, shown⟩ := held ⟨idx, status, Option.none⟩ (List.mem_cons_self ..)
  have created : s.Created idx := Decidable.by_contra fun absent => by
    rw [(inv.clean idx absent).status] at active
    cases active
  have pending : ¬ s.Complete idx := fun complete => complete.2 active
  have notMerged : s.history.phase idx ≠ .merged := fun merged =>
    inv.settled idx merged none active
  have slotsSame : ∀ j, (put s.table idx { s.table idx with
      status := status, waiters := fun _ => false } j).parents = (s.table j).parents :=
    fun j => by
      by_cases same : j = idx
      · rw [same, put_same]
      · rw [put_other same]
  refine
    { reserved := inv.reserved
      clean := ?_
      valid := inv.valid
      phased := inv.phased
      refs := ?_
      plain := inv.plain
      slotted := fun j => by simpa only [slotsSame j] using inv.slotted j
      linked := fun pIdx grouped j => by
        simpa only [slotsSame j] using inv.linked pIdx grouped j
      tally := ?_
      published := inv.published
      counted := ?_
      settled := ?_
      leaf := ?_
      hidden := fun pIdx phase => by simpa only [slotsSame pIdx] using inv.hidden pIdx phase
      sound := ?_
      targets := inv.targets_set here (.inl rfl) }
  · intro j absent
    have differs : j ≠ idx := fun same => absent (same ▸ created)
    simpa only [put_other differs] using inv.clean j absent
  · intro j created'
    have before := inv.refs j created'
    by_cases same : j = idx
    · subst same
      simpa only [put_same] using before
    · simpa only [put_other same] using before
  · intro pIdx grouped
    have positive := inv.ne_zero grouped.ne_plain
    refine (inv.tally pIdx grouped).finish pending ?_ ?_ fun child differs => ⟨?_, ?_⟩
    · simpa [State.Complete, none] using Nat.ne_of_gt signals
    · rw [inFlight_leaf here rfl, if_pos ⟨rfl, positive⟩, inv.linked pIdx grouped idx]
    · rw [inFlight_leaf here rfl, if_neg fun both => differs both.1, Nat.add_zero]
    · simp only [State.Complete, put_other differs]
  · intro pIdx merged
    have differs : pIdx ≠ idx := fun same => notMerged (same ▸ merged)
    simpa only [put_other differs] using inv.counted pIdx merged
  · intro pIdx merged
    have differs : pIdx ≠ idx := fun same => notMerged (same ▸ merged)
    simpa only [put_other differs] using inv.settled pIdx merged
  · intro j phase
    have before := inv.leaf j phase
    by_cases same : j = idx
    · subst same
      simpa only [put_same] using before
    · simpa only [put_other same] using before
  · refine inv.sound_set here ?_ fun other _ _ sound => ?_
    · intro note' member
      rcases List.mem_append.mp member with new | old
      · exact inv.sound_notesFor signals note' new
      · exact held note' (List.mem_cons_of_mem _ old)
    · cases other with
      | signaling notes => exact sound
      | merging work => exact { sound with }
      | undoing idxList pIdx numChild => exact sound

/-- The notification arrives, and counts as a member's end for the parents if it was the
last. -/
theorem tally_signalChild (inv : s.Inv) {pIdx child : Nat} {obj : Coredata} {more : List Note}
    {history : History}
    (here : s.running[k]? = some (.signaling (⟨pIdx, status, some child⟩ :: notes)))
    (merged : s.history.phase pIdx = .merged) (pending : ¬ s.Complete pIdx)
    (ended : obj.numChild = 0 → obj.status ≠ SYNX_STATE_ACTIVE)
    (calls : more = if obj.numChild = 0 then notesFor pIdx status (s.table pIdx).parents.slots
      else []) (q : Nat) (grouped : s.Grouped q) :
    Tally (s.history.members q)
      (put s.history.notified pIdx (s.history.notified pIdx ++ [child]) q)
      (State.inFlight { s with
        table := put s.table pIdx obj
        running := s.running.set k (.signaling (more ++ notes))
        history := history } q)
      (State.Complete { s with
        table := put s.table pIdx obj
        running := s.running.set k (.signaling (more ++ notes))
        history := history }) := by
  have nonzero := inv.ne_zero grouped.ne_plain
  have total := fun b => inFlight_child { s with
    table := put s.table pIdx obj
    running := s.running.set k (.signaling (more ++ notes))
    history := history } here rfl q b
  -- between the arrival and what the composite sends in turn
  let flight : Nat → Nat := fun b => s.inFlight q b - if pIdx = q ∧ child = b then 1 else 0
  have arrived : ∀ b, s.inFlight q b = flight b + if pIdx = q ∧ child = b then 1 else 0 := by
    intro b
    simp only [flight]
    split
    · obtain ⟨rfl, rfl⟩ := ‹_›
      exact (Nat.sub_add_cancel (inFlight_pos here rfl)).symm
    · rfl
  have reported : Tally (s.history.members q)
      (put s.history.notified pIdx (s.history.notified pIdx ++ [child]) q) flight s.Complete := by
    by_cases same : q = pIdx
    · subst same
      rw [put_same]
      refine (inv.tally q grouped).report (by simp [arrived child]) fun b differs => ?_
      simp [arrived b, differs.symm]
    · rw [put_other same]
      refine (inv.tally q grouped).congr (fun b => ?_) fun _ _ => Iff.rfl
      simp [arrived b, Ne.symm same]
  by_cases last : obj.numChild = 0
  · have sent : ∀ b, (more.countP fun note => note.idx = q ∧ note.child = some b) =
        if b = pIdx ∧ q ≠ 0 then (s.table pIdx).parents.slots.count q else 0 := fun b => by
      rw [calls, if_pos last]
      exact countP_notesFor
    refine reported.finish pending ?_ ?_ fun b differs => ⟨?_, ?_⟩
    · simpa [State.Complete, last] using ended last
    · have sum := total pIdx
      rw [sent, if_pos (show pIdx = pIdx ∧ q ≠ 0 from ⟨rfl, nonzero⟩),
        inv.linked q grouped, arrived] at sum
      omega
    · have sum := total b
      rw [sent, if_neg (show ¬ (b = pIdx ∧ q ≠ 0) from fun both => differs both.1),
        arrived] at sum
      omega
    · simp only [State.Complete, put_other differs]
  · have sent : ∀ b, (more.countP fun note => note.idx = q ∧ note.child = some b) = 0 :=
      fun b => by rw [calls, if_neg last, List.countP_nil]
    refine reported.congr (fun b => ?_) fun b _ => ?_
    · have sum := total b
      rw [sent, arrived] at sum
      omega
    · by_cases same : b = pIdx
      · subst same
        exact iff_of_false (by simp [State.Complete, last]) pending
      · simp only [State.Complete, put_other same]

theorem pending_of_note (inv : s.Inv) {pIdx child : Nat}
    (here : s.running[k]? = some (.signaling (⟨pIdx, status, some child⟩ :: notes)))
    (due : ¬ s.Unfinished pIdx) :
    s.history.phase pIdx = .merged ∧ (s.table pIdx).numChild ≠ 0 := by
  have sound := inv.sound_of_get here ⟨pIdx, status, some child⟩ (List.mem_cons_self ..)
  have merged : s.history.phase pIdx = .merged := by
    have shown := sound.2
    cases phase : s.history.phase pIdx with
    | plain => exact absurd phase shown
    | merging => exact absurd (.inl phase) due
    | merged => rfl
    | failed => exact absurd (.inr phase) due
  have fewer := (inv.tally pIdx (.inr merged)).length_lt (inFlight_pos here rfl)
  have counted := inv.counted pIdx merged
  exact ⟨merged, by omega⟩

theorem signalChild (inv : s.Inv) {pIdx child : Nat} {obj : Coredata} {more : List Note}
    (here : s.running[k]? = some (.signaling (⟨pIdx, status, some child⟩ :: notes)))
    (due : ¬ s.Unfinished pIdx) (parents : obj.parents = (s.table pIdx).parents)
    (down : obj.numChild + 1 = (s.table pIdx).numChild)
    (refs : obj.refcount = if obj.numChild = 0 then 1 else 2)
    (ended : obj.numChild = 0 → obj.status ≠ SYNX_STATE_ACTIVE)
    (calls : more = if obj.numChild = 0 then notesFor pIdx status (s.table pIdx).parents.slots
      else []) :
    State.Inv { s with
      table := put s.table pIdx obj
      running := s.running.set k (.signaling (more ++ notes))
      history := { s.history with
        notified := put s.history.notified pIdx (s.history.notified pIdx ++ [child])
        sent := sent } } := by
  obtain ⟨merged, children⟩ := inv.pending_of_note here due
  have held := inv.sound_of_get here
  have signals := (held ⟨pIdx, status, some child⟩ (List.mem_cons_self ..)).1
  have created : s.Created pIdx := inv.phased pIdx (by simp [merged])
  have pending : ¬ s.Complete pIdx := fun complete => children complete.1
  have slotsSame : ∀ j, (put s.table pIdx obj j).parents = (s.table j).parents := fun j => by
    by_cases same : j = pIdx
    · rw [same, put_same, parents]
    · rw [put_other same]
  refine
    { reserved := inv.reserved
      clean := ?_
      valid := inv.valid
      phased := inv.phased
      refs := ?_
      plain := ?_
      slotted := fun j => by simpa only [slotsSame j] using inv.slotted j
      linked := fun q grouped j => by simpa only [slotsSame j] using inv.linked q grouped j
      tally := ?_
      published := inv.published
      counted := ?_
      settled := ?_
      leaf := ?_
      hidden := fun q phase => by simpa only [slotsSame q] using inv.hidden q phase
      sound := ?_
      targets := inv.targets_set here (.inl rfl) }
  · intro j absent
    have differs : j ≠ pIdx := fun same => absent (same ▸ created)
    simpa only [put_other differs] using inv.clean j absent
  · intro j created'
    by_cases same : j = pIdx
    · subst same
      simpa only [put_same] using refs
    · simpa only [put_other same] using inv.refs j created'
  · intro j plain
    have differs : j ≠ pIdx := fun same => by
      rw [same] at plain
      exact absurd (merged.symm.trans plain) (by simp)
    simpa only [put_other differs] using inv.plain j plain
  · intro q grouped
    exact inv.tally_signalChild here merged pending ended calls q grouped
  · intro q merged'
    have before := inv.counted q merged'
    by_cases same : q = pIdx
    · subst same
      simp only [put_same, List.length_append, List.length_singleton]
      omega
    · simpa only [put_other same] using before
  · intro q merged'
    by_cases same : q = pIdx
    · subst same
      simpa only [put_same] using ended
    · simpa only [put_other same] using inv.settled q merged'
  · intro j phase
    have differs : j ≠ pIdx := fun same => phase (same ▸ merged)
    simpa only [put_other differs] using inv.leaf j phase
  · refine inv.sound_set here ?_ fun other _ _ sound => ?_
    · intro note' member
      rcases List.mem_append.mp member with new | old
      · rw [calls] at new
        split at new
        · exact inv.sound_notesFor signals note' new
        · cases new
      · exact held note' (List.mem_cons_of_mem _ old)
    · cases other with
      | signaling notes => exact sound
      | merging work =>
        have differs : work.pIdx ≠ pIdx := fun same =>
          absurd (sound.phase.symm.trans (same ▸ merged)) (by simp)
        exact { sound with counted := by simpa only [put_other differs] using sound.counted }
      | undoing idxList q numChild => exact sound

end Signal

theorem signal (inv : s.Inv) {k : Nat} {note : Note} {notes : List Note}
    (here : s.running[k]? = some (.signaling (note :: notes))) (due : note.Due s) :
    State.Inv { (s.signal note).1 with
      running := s.running.set k (.signaling ((s.signal note).2 ++ notes)) } := by
  obtain ⟨idx, status, child⟩ := note
  cases child with
  | none =>
    have leaf := updateStatusLocked_leaf status (updateStatusCheck_proceed due).1
    simp only [State.signal, leaf]
    exact inv.signalLeaf here due
  | some child =>
    obtain ⟨merged, children⟩ := inv.pending_of_note here due
    have refs := inv.refs idx (inv.phased idx (by simp [merged]))
    rw [if_neg children] at refs
    by_cases last : (s.table idx).numChild = 1
    · have locked := updateStatusLocked_last status last refs
      have signals := (inv.sound_of_get here ⟨idx, status, some child⟩
        (List.mem_cons_self ..)).1
      simp only [State.signal, locked, Bool.false_eq_true, if_false]
      refine inv.signalChild here due rfl last.symm rfl (fun _ => ?_) rfl
      exact mergedStatus_ne_active signals
    · have locked := updateStatusLocked_more status children last
      simp only [State.signal, locked, Bool.false_eq_true, if_false]
      have more : (s.table idx).numChild - 1 ≠ 0 := by omega
      refine inv.signalChild here due rfl (by simp only; omega) ?_ (fun none => ?_) ?_
      · exact (if_neg more).symm ▸ refs
      · exact absurd none more
      · exact (if_neg more).symm

end State.Inv

end VendorModules.Synx
