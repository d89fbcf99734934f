import VendorModules.Synx.Invariant

namespace VendorModules.Synx

open Lib

variable {s : State}

/-! The calls keep the invariant: nothing is linked to a new object. -/

theorem initCoredata_eq {obj obj' : Coredata} {handle : Nat}
    (made : initCoredata obj handle = some obj') :
    obj' = .active handle := by
  unfold initCoredata at made
  split at made
  · cases made
  · exact (Option.some.inj made).symm

theorem Coredata.Clean.init_ne_none {obj : Coredata} (clean : obj.Clean) (handle : Nat) :
    initCoredata obj handle ≠ none := by
  simp [initCoredata, clean.status, clean.refcount, clean.subscribers, clean.handle,
    clean.slots, Parents.none]

namespace State.Inv

section Create

variable {idx handle : Nat} {obj : Coredata}

theorem create (inv : s.Inv) (valid : idx < SYNX_GLOBAL_MAX_OBJS)
    (free : s.bitmap idx = false) (made : initCoredata (s.table idx) handle = some obj) :
    State.Inv { s with bitmap := put s.bitmap idx true, table := put s.table idx obj } := by
  obtain rfl := initCoredata_eq made
  have unborn : ¬ s.Created idx := fun created => by
    rw [created.2] at free
    cases free
  have nonzero : idx ≠ 0 := fun zero => by
    rw [zero, inv.reserved] at free
    cases free
  have plain : s.history.phase idx = .plain := Decidable.by_contra fun phase =>
    unborn (inv.phased idx phase)
  have slots := (inv.clean idx unborn).slots
  have older : ∀ {j}, s.Created j → j ≠ idx := fun created same => unborn (same ▸ created)
  have createdMono : ∀ {j}, s.Created j →
      State.Created { s with bitmap := put s.bitmap idx true } j := fun created =>
    ⟨created.1, (put_other (older created)).trans created.2⟩
  have slotsSame : ∀ j, (put s.table idx (.active handle) j).parents.slots =
      (s.table j).parents.slots := fun j => by
    by_cases same : j = idx
    · subst same
      rw [put_same]
      exact slots.symm
    · rw [put_other same]
  have publishedMono : ∀ j, s.Published j →
      State.Published { s with bitmap := put s.bitmap idx true } j := fun j published =>
    ⟨createdMono published.1, published.2⟩
  refine
    { reserved := (put_other nonzero.symm).trans inv.reserved
      clean := ?_
      valid := ?_
      phased := fun j phase => createdMono (inv.phased j phase)
      refs := ?_
      plain := inv.plain
      slotted := fun j pIdx member => inv.slotted j pIdx (slotsSame j ▸ member)
      linked := fun pIdx grouped j => (congrArg (List.count pIdx) (slotsSame j)).trans
        (inv.linked pIdx grouped j)
      tally := ?_
      published := fun pIdx grouped j member =>
        publishedMono j (inv.published pIdx grouped j member)
      counted := ?_
      settled := ?_
      leaf := ?_
      hidden := fun pIdx phase => (slotsSame pIdx).trans (inv.hidden pIdx phase)
      sound := ?_
      targets := inv.targets }
  · intro j absent
    have differs : j ≠ idx := fun same => absent ⟨same ▸ nonzero, by rw [same]; exact put_same⟩
    have before : ¬ s.Created j := fun created => absent (createdMono created)
    simpa only [put_other differs] using inv.clean j before
  · rintro j ⟨positive, marked⟩
    by_cases same : j = idx
    · exact same ▸ valid
    · exact inv.valid j ⟨positive, (put_other same).symm.trans marked⟩
  · rintro j ⟨positive, marked⟩
    by_cases same : j = idx
    · subst same
      simp [Coredata.active]
    · simp only [put_other same]
      exact inv.refs j ⟨positive, (put_other same).symm.trans marked⟩
  · intro pIdx grouped
    refine (inv.tally pIdx grouped).congr (fun child => congrFun₂ (inFlight_congr rfl) _ _)
      fun child member => ?_
    have differs := older (inv.published pIdx grouped child member).1
    simp only [State.Complete, put_other differs]
  · intro pIdx merged
    have differs := older (inv.phased pIdx (by simp [show s.history.phase pIdx = _ from merged]))
    simpa only [put_other differs] using inv.counted pIdx merged
  · intro pIdx merged
    have differs := older (inv.phased pIdx (by simp [show s.history.phase pIdx = _ from merged]))
    simpa only [put_other differs] using inv.settled pIdx merged
  · intro j phase
    by_cases same : j = idx
    · subst same
      simp [Coredata.active]
    · simpa only [put_other same] using inv.leaf j phase
  · intro activity running
    have sound := inv.sound activity running
    cases activity with
    | signaling notes => exact sound
    | merging work =>
      exact { sound with published := fun j member => publishedMono j (sound.published j member) }
    | undoing idxList pIdx numChild => exact sound

end Create

theorem wait (inv : s.Inv) {idx : Nat} {waiters waited : CoreId → Bool}
    (pending : ¬ s.Complete idx) :
    State.Inv { s with
      table := put s.table idx { s.table idx with waiters := waiters }
      history := { s.history with waited := put s.history.waited idx waited } } := by
  have created : s.Created idx := Decidable.by_contra fun absent =>
    pending ⟨(inv.clean idx absent).numChild, by simp [(inv.clean idx absent).status,
      SYNX_STATE_ACTIVE]⟩
  have same : ∀ j, ∃ waiters', put s.table idx { s.table idx with waiters := waiters } j =
      { s.table j with waiters := waiters' } := fun j => by
    by_cases equal : j = idx
    · subst equal
      exact ⟨waiters, put_same⟩
    · exact ⟨(s.table j).waiters, put_other equal⟩
  refine
    { reserved := inv.reserved
      clean := ?_
      valid := inv.valid
      phased := inv.phased
      refs := ?_
      plain := inv.plain
      slotted := ?_
      linked := ?_
      tally := ?_
      published := inv.published
      counted := ?_
      settled := ?_
      leaf := ?_
      hidden := ?_
      sound := ?_
      targets := inv.targets }
  · intro j absent
    have differs : j ≠ idx := fun equal => absent (equal ▸ created)
    simpa only [put_other differs] using inv.clean j absent
  · intro j
    obtain ⟨waiters', equal⟩ := same j
    simp only [equal]
    exact inv.refs j
  · intro j
    obtain ⟨waiters', equal⟩ := same j
    simpa only [equal] using inv.slotted j
  · intro pIdx grouped j
    obtain ⟨waiters', equal⟩ := same j
    simpa only [equal] using inv.linked pIdx grouped j
  · intro pIdx grouped
    refine (inv.tally pIdx grouped).congr (fun child => congrFun₂ (inFlight_congr rfl) _ _)
      fun child _ => ?_
    obtain ⟨waiters', equal⟩ := same child
    simp only [State.Complete, equal]
  · intro pIdx
    obtain ⟨waiters', equal⟩ := same pIdx
    simpa only [equal] using inv.counted pIdx
  · intro pIdx
    obtain ⟨waiters', equal⟩ := same pIdx
    simpa only [equal] using inv.settled pIdx
  · intro j
    obtain ⟨waiters', equal⟩ := same j
    simpa only [equal] using inv.leaf j
  · intro pIdx
    obtain ⟨waiters', equal⟩ := same pIdx
    simpa only [equal] using inv.hidden pIdx
  · intro activity running
    have sound := inv.sound activity running
    cases activity with
    | signaling notes => exact sound
    | merging work => exact { sound with }
    | undoing idxList pIdx numChild => exact sound

theorem update (inv : s.Inv) {idx status : Nat} (signals : SYNX_STATE_ACTIVE < status)
    (shown : ¬ s.Unfinished idx) :
    State.Inv { s with running := s.running ++ [.signaling [⟨idx, status, none⟩]] } := by
  refine
    { inv with
      tally := ?_
      sound := ?_
      targets := ?_ }
  · intro pIdx grouped
    refine (inv.tally pIdx grouped).congr (fun child => ?_) fun _ _ => Iff.rfl
    exact inFlight_append_none rfl (by simp [Activity.flight])
  · intro activity running
    rcases List.mem_append.mp running with before | new
    · have sound := inv.sound activity before
      cases activity with
      | signaling notes => exact sound
      | merging work => exact { sound with }
      | undoing idxList pIdx numChild => exact sound
    · obtain rfl := List.mem_singleton.mp new
      intro note held
      obtain rfl := List.mem_singleton.mp held
      exact ⟨signals, shown⟩
  · simp only [List.filterMap_append, Activity.target, List.filterMap_cons, List.filterMap_nil,
      List.append_nil]
    exact inv.targets

theorem merge (inv : s.Inv) {idxList : List Nat} {pIdx : Nat} (fresh : s.Fresh pIdx)
    (nonempty : idxList ≠ []) (other : pIdx ∉ idxList)
    (published : ∀ idx ∈ idxList, s.Published idx) :
    State.Inv { s with
      running := s.running ++ [.merging ⟨pIdx, [], idxList, 0, SYNX_STATE_ACTIVE⟩]
      history := { s.history with phase := put s.history.phase pIdx .merging } } := by
  have nonzero : pIdx ≠ 0 := fresh.created.1
  have outside : ∀ {q}, s.Grouped q → q ≠ pIdx := fun grouped same =>
    grouped.ne_plain (same ▸ fresh.plain)
  have older : ∀ {q}, (put s.history.phase pIdx .merging q = .merging ∨
      put s.history.phase pIdx .merging q = .merged) → q ≠ pIdx → s.Grouped q :=
    fun grouped differs => by rwa [put_other differs] at grouped
  have unfinished : ∀ {j}, j ≠ pIdx → ((put s.history.phase pIdx .merging j = .merging ∨
      put s.history.phase pIdx .merging j = .failed) ↔ s.Unfinished j) :=
    fun differs => by rw [put_other differs]; rfl
  have noMember : ∀ q, s.Grouped q → pIdx ∉ s.history.members q := by
    intro q grouped member
    have counted := inv.linked q grouped pIdx
    rw [fresh.unlinked] at counted
    have positive := List.count_pos_iff.mpr member
    have absent : Parents.none.slots.count q = 0 := by
      have := inv.ne_zero grouped.ne_plain
      simp [Parents.none, this.symm]
    omega
  have noSlot : ∀ j, pIdx ∉ (s.table j).parents.slots := fun j member =>
    inv.slotted j pIdx member nonzero fresh.plain
  refine
    { inv with
      phased := ?_
      plain := ?_
      slotted := ?_
      linked := ?_
      tally := ?_
      published := ?_
      counted := ?_
      settled := ?_
      leaf := ?_
      hidden := ?_
      sound := ?_
      targets := ?_ }
  · intro j phase
    by_cases same : j = pIdx
    · exact same ▸ fresh.created
    · simp only [put_other same] at phase
      exact inv.phased j phase
  · intro j phase
    by_cases same : j = pIdx
    · subst same
      simp at phase
    · simp only [put_other same] at phase
      exact inv.plain j phase
  · intro j q member positive
    by_cases same : q = pIdx
    · subst same
      simp
    · simpa only [put_other same] using inv.slotted j q member positive
  · intro q grouped j
    by_cases same : q = pIdx
    · subst same
      simp only [(inv.plain q fresh.plain).1, List.count_nil]
      exact List.count_eq_zero.mpr (noSlot j)
    · exact inv.linked q (older grouped same) j
  · intro q grouped
    by_cases same : q = pIdx
    · subst same
      simp only [(inv.plain q fresh.plain).1, (inv.plain q fresh.plain).2]
      exact Tally.empty fun child =>
        (inFlight_append_none rfl rfl).trans (inv.inFlight_plain fresh.plain child)
    · exact (inv.tally q (older grouped same)).congr (fun child => inFlight_append_none rfl rfl)
        fun _ _ => Iff.rfl
  · intro q grouped j member
    by_cases same : q = pIdx
    · subst same
      simp [(inv.plain q fresh.plain).1] at member
    · have before := inv.published q (older grouped same) j member
      have differs : j ≠ pIdx := fun equal => noMember q (older grouped same) (equal ▸ member)
      exact ⟨before.1, fun pending => before.2 ((unfinished differs).mp pending)⟩
  · intro q merged
    have differs : q ≠ pIdx := fun same => by simp [same] at merged
    exact inv.counted q (by simpa only [put_other differs] using merged)
  · intro q merged
    have differs : q ≠ pIdx := fun same => by simp [same] at merged
    exact inv.settled q (by simpa only [put_other differs] using merged)
  · intro j phase
    by_cases same : j = pIdx
    · subst same
      exact inv.leaf j (by simp [fresh.plain])
    · exact inv.leaf j (by simpa only [put_other same] using phase)
  · intro q phase
    by_cases same : q = pIdx
    · exact same ▸ fresh.unlinked
    · exact inv.hidden q (by simpa only [put_other same] using phase)
  · intro activity running
    rcases List.mem_append.mp running with before | new
    · have sound := inv.sound activity before
      have unmentioned := fresh.unmentioned activity before
      cases activity with
      | signaling notes =>
        intro note held
        have differs : note.idx ≠ pIdx := fun same =>
          unmentioned (List.mem_map.mpr ⟨note, held, same⟩)
        have kept := sound note held
        refine ⟨kept.1, ?_⟩
        have rest := kept.2
        split at rest
        · exact fun pending => rest ((unfinished differs).mp pending)
        · simpa only [put_other differs] using rest
      | merging work =>
        have apart : work.pIdx ≠ pIdx := fun same => unmentioned (by simp [Activity.mentions, same])
        refine
          { sound with
            phase := (put_other apart).trans sound.phase
            published := fun j member => ?_ }
        have differs : j ≠ pIdx := fun same => unmentioned (by
          simp [Activity.mentions, Merging.idxList, ← same, member])
        have kept := sound.published j member
        exact ⟨kept.1, fun pending => kept.2 ((unfinished differs).mp pending)⟩
      | undoing idxList q numChild =>
        have apart : q ≠ pIdx := fun same => unmentioned (by simp [Activity.mentions, same])
        exact (put_other apart).trans sound
    · obtain rfl := List.mem_singleton.mp new
      refine
        { phase := put_same
          members := (inv.plain pIdx fresh.plain).1
          counted := by simp [(inv.plain pIdx fresh.plain).2]
          active := fun _ => rfl
          published := fun j member => ?_
          nonempty := nonempty }
      have differs : j ≠ pIdx := fun same => other (same ▸ member)
      exact ⟨(published j member).1, fun pending =>
        (published j member).2 ((unfinished differs).mp pending)⟩
  · rw [List.filterMap_append, List.nodup_append]
    refine ⟨inv.targets, by simp [Activity.target], fun q before q' new equal => ?_⟩
    simp only [List.filterMap_cons, Activity.target, List.filterMap_nil,
      List.mem_singleton] at new
    obtain ⟨activity, running, targeted⟩ := List.mem_filterMap.mp before
    have unmentioned := fresh.unmentioned activity running
    cases activity with
    | merging work =>
      simp only [Activity.target, Option.some.injEq] at targeted
      exact unmentioned (by simp [Activity.mentions, targeted, equal, new])
    | signaling notes => cases targeted
    | undoing idxList q numChild => cases targeted

end State.Inv

end VendorModules.Synx
