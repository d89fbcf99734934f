import VendorModules.Synx.Outcome

namespace VendorModules.Synx

open Lib

variable {s s' : State}

/-! The status a composite carries comes from a leaf, and an error that it has heard of
stays. -/

theorem isError_active : isError SYNX_STATE_ACTIVE = false := rfl

theorem mergedStatus_cases (own status : Nat) :
    (mergedStatus own status = status ∧ (own = SYNX_STATE_ACTIVE ∨ isError status = true)) ∨
      (mergedStatus own status = own ∧ own ≠ SYNX_STATE_ACTIVE ∧ isError status = false) := by
  unfold mergedStatus
  split
  · exact .inl ⟨rfl, ‹_›⟩
  · rename_i kept
    exact .inr ⟨rfl, fun active => kept (.inl active), Bool.eq_false_iff.mpr fun error =>
      kept (.inr error)⟩

theorem State.Inv.below_mono (inv : s.Inv) {pIdx idx : Nat} (grouped : s.Grouped pIdx)
    (below : s.Below pIdx idx)
    (members : ∀ p, s.Grouped p → ∀ m ∈ s.history.members p, m ∈ s'.history.members p)
    (plain : ∀ p, s.Grouped p → ∀ m ∈ s.history.members p, s.history.phase m = .plain →
      s'.history.phase m = .plain) : s'.Below pIdx idx := by
  induction below with
  | leaf member phase => exact .leaf (members _ grouped _ member) (plain _ grouped _ member phase)
  | @under pIdx child idx member below ih =>
    refine .under (members _ grouped _ member) (ih ?_)
    cases phase : s.history.phase child with
    | plain =>
      have none := (inv.plain child phase).1
      cases below with
      | leaf inner _ => simp [none] at inner
      | under inner _ => simp [none] at inner
    | merging => exact .inl phase
    | merged => exact .inr phase
    | failed => exact absurd (.inr phase) (inv.published pIdx grouped child member).2

structure State.Carries (s : State) (pIdx status : Nat) : Prop where
  origin : status ≠ SYNX_STATE_ACTIVE →
    ∃ idx, s.Below pIdx idx ∧ s.history.given idx = some status
  errors : ∀ child ∈ s.history.notified pIdx, isError (s.table child).status = true →
    isError status = true

structure Kept (s s' : State) : Prop where
  below : ∀ {pIdx idx}, s.Grouped pIdx → s.Below pIdx idx → s'.Below pIdx idx
  given : ∀ {idx status}, s.history.given idx = some status → s'.history.given idx = some status
  ended : ∀ {idx}, s.Published idx → s.Complete idx →
    (s'.table idx).status = (s.table idx).status
  grouped : ∀ {pIdx}, s.history.phase pIdx ≠ .plain → s'.Grouped pIdx → s.Grouped pIdx

theorem State.Carries.mono (inv : s.Inv) (kept : Kept s s') {pIdx status : Nat}
    (grouped : s.Grouped pIdx) (same : s'.history.notified pIdx = s.history.notified pIdx)
    (carries : s.Carries pIdx status) : s'.Carries pIdx status where
  origin := fun signaled =>
    have ⟨idx, below, given⟩ := carries.origin signaled
    ⟨idx, kept.below grouped below, kept.given given⟩
  errors := fun child heard error => by
    rw [same] at heard
    have tally := inv.tally pIdx grouped
    rw [kept.ended (inv.published pIdx grouped child (tally.mem_of_reported heard))
      (tally.ended_of_reported heard)] at error
    exact carries.errors child heard error

structure State.Statuses (s : State) : Prop where
  unborn : ∀ idx, ¬ s.Created idx → s.history.given idx = none
  above : ∀ idx status, s.history.given idx = some status → SYNX_STATE_ACTIVE < status
  given : ∀ idx, s.Created idx → s.history.phase idx = .plain →
    s.history.given idx =
      if (s.table idx).status = SYNX_STATE_ACTIVE then none else some (s.table idx).status
  merged : ∀ pIdx, s.history.phase pIdx = .merged → s.Carries pIdx (s.table pIdx).status
  merging : ∀ work, .merging work ∈ s.running → s.Carries work.pIdx work.parentStatus
  notes : ∀ notes, .signaling notes ∈ s.running → ∀ note ∈ notes, ∀ child,
    note.child = some child → s.Grouped note.idx → (s.table child).status = note.status

theorem State.Statuses.source (statuses : s.Statuses) {child : Nat}
    (published : s.Published child) (signaled : (s.table child).status ≠ SYNX_STATE_ACTIVE) :
    (s.history.phase child = .plain ∧
        s.history.given child = some (s.table child).status) ∨
      (s.history.phase child = .merged ∧
        ∃ idx, s.Below child idx ∧ s.history.given idx = some (s.table child).status) := by
  cases phase : s.history.phase child with
  | plain =>
    refine .inl ⟨rfl, ?_⟩
    rw [statuses.given child published.1 phase, if_neg signaled]
  | merged => exact .inr ⟨rfl, (statuses.merged child phase).origin signaled⟩
  | merging => exact absurd (.inl phase) published.2
  | failed => exact absurd (.inr phase) published.2

section Kept

variable {k : Nat}

theorem State.Inv.fresh_not_member (inv : s.Inv) {pIdx q : Nat} (fresh : s.Fresh pIdx)
    (grouped : s.Grouped q) : pIdx ∉ s.history.members q := by
  intro member
  have counted := inv.linked q grouped pIdx
  rw [fresh.unlinked, List.count_eq_zero.mpr (by
    simpa [Parents.none] using inv.ne_zero grouped.ne_plain)] at counted
  exact absurd (List.count_pos_iff.mpr member) (by omega)

theorem State.Statuses.kept (statuses : s.Statuses) (inv : s.Inv)
    (change : Change s (Note.Due s) s') : Kept s s' := by
  cases change with
  | stay => exact ⟨fun _ below => below, id, fun _ _ => rfl, fun _ grouped => grouped⟩
  | @create idx handle obj valid index free made =>
    refine ⟨fun grouped below => inv.below_mono grouped below (fun _ _ _ member => member)
      fun _ _ _ _ phase => phase, id, fun {j} published _ => ?_, fun _ grouped => grouped⟩
    have differs : j ≠ idx := fun same => by
      rw [← same, published.1.2] at free
      cases free
    simp only [put_other differs]
  | refuse => exact ⟨fun grouped below => inv.below_mono grouped below
      (fun _ _ _ member => member) fun _ _ _ _ phase => phase, id, fun _ _ => rfl,
      fun _ grouped => grouped⟩
  | @wait idx id shown pending =>
    refine ⟨fun grouped below => inv.below_mono grouped below (fun _ _ _ member => member)
      fun _ _ _ _ phase => phase, fun given => given, fun {j} _ complete => ?_,
      fun _ grouped => grouped⟩
    have differs : j ≠ idx := fun same => pending (same ▸ complete)
    simp only [put_other differs]
  | update => exact ⟨fun grouped below => inv.below_mono grouped below
      (fun _ _ _ member => member) fun _ _ _ _ phase => phase, id, fun _ _ => rfl,
      fun _ grouped => grouped⟩
  | @merge idxList pIdx fresh nonempty other published =>
    refine ⟨fun grouped below => inv.below_mono grouped below (fun _ _ _ member => member)
      fun q grouped m member phase => ?_, fun given => given, fun _ _ => rfl,
      fun {q} used grouped => ?_⟩
    · have differs : m ≠ pIdx := fun same => inv.fresh_not_member fresh grouped (same ▸ member)
      exact (put_other differs).trans phase
    · have differs : q ≠ pIdx := fun same => used (same ▸ fresh.plain)
      simpa only [State.Grouped, put_other differs] using grouped
  | @signal k note notes here due =>
    obtain ⟨idx, status, child⟩ := note
    have pending : ¬ s.Complete idx := by
      cases child with
      | none => exact fun complete => complete.2 (updateStatusCheck_proceed due).2
      | some child => exact fun complete => (inv.pending_of_note here due).2 complete.1
    refine ⟨fun grouped below => inv.below_mono grouped below (fun _ _ _ member => member)
      fun _ _ _ _ phase => phase, fun {j st} given => ?_, fun {j} _ complete => ?_,
      fun _ grouped => grouped⟩
    · cases child with
      | some child => exact given
      | none =>
        have differs : j ≠ idx := fun same => by
          obtain ⟨none, active⟩ := updateStatusCheck_proceed due
          have created : s.Created idx := Decidable.by_contra fun absent => by
            rw [(inv.clean idx absent).status] at active
            cases active
          have phase : s.history.phase idx = .plain := by
            have shown := (inv.sound_of_get here ⟨idx, status, Option.none⟩
              (List.mem_cons_self ..)).2
            cases phase : s.history.phase idx with
            | plain => rfl
            | merging => exact absurd (.inl phase) shown
            | merged => exact absurd active (inv.settled idx phase none)
            | failed => exact absurd (.inr phase) shown
          rw [same, statuses.given idx created phase, if_pos active] at given
          cases given
        simpa only [State.signal, put_other differs] using given
    · have differs : j ≠ idx := fun same => pending (same ▸ complete)
      simp only [State.signal, put_other differs]
  | @link k idx work rest here next free =>
    have sound := inv.sound_of_get here
    refine ⟨fun grouped below => inv.below_mono grouped below (fun q _ m member => ?_)
      fun q _ m member phase => ?_, fun given => ?_, fun {j} _ _ => ?_,
      fun _ grouped => by simpa only [State.Grouped, State.link, free, if_true] using grouped⟩
    · simp only [State.link, free, if_true]
      by_cases target : q = work.pIdx
      · subst target
        rw [put_same]
        exact List.mem_append_left _ member
      · rwa [put_other target]
    · simpa only [State.link, free, if_true] using phase
    · simpa only [State.link, free, if_true] using given
    · simp only [State.link, free, if_true]
      by_cases same : j = idx
      · subst same
        simp only [put_same, linkParent]
      · simp only [put_other same]
  | @fail k work numChild here =>
    have sound := inv.sound_of_get here
    refine ⟨fun grouped below => inv.below_mono grouped below (fun _ _ _ member => member)
      fun q grouped m member phase => ?_, fun given => given, fun _ _ => rfl,
      fun {q} _ grouped => ?_⟩
    · have differs : m ≠ work.pIdx := fun same =>
        (inv.published q grouped m member).2 (.inl (same ▸ sound.phase))
      exact (put_other differs).trans phase
    · by_cases same : q = work.pIdx
      · exact .inl (same ▸ sound.phase)
      · simpa only [State.Grouped, put_other same] using grouped
  | @add k work here last =>
    have sound := inv.sound_of_get here
    refine ⟨fun grouped below => inv.below_mono grouped below (fun _ _ _ member => member)
      fun q grouped m member phase => ?_, fun given => given, fun {j} published _ => ?_,
      fun {q} _ grouped => ?_⟩
    · have differs : m ≠ work.pIdx := fun same =>
        (inv.published q grouped m member).2 (.inl (same ▸ sound.phase))
      exact (put_other differs).trans phase
    · have differs : j ≠ work.pIdx := fun same => published.2 (.inl (same ▸ sound.phase))
      simp only [State.add, put_other differs]
    · by_cases same : q = work.pIdx
      · exact .inl (same ▸ sound.phase)
      · simpa only [State.Grouped, State.add, put_other same] using grouped
  | @unlink k pIdx numChild idxList idx here =>
    refine ⟨fun grouped below => inv.below_mono grouped below (fun _ _ _ member => member)
      fun _ _ _ _ phase => phase, fun given => given, fun {j} _ _ => ?_,
      fun _ grouped => grouped⟩
    by_cases same : j = idx
    · subst same
      simp only [put_same, unlinkParent]
    · simp only [put_other same]

theorem State.Inv.child_of_note (inv : s.Inv) {notes : List Note} {note : Note} {child : Nat}
    (running : .signaling notes ∈ s.running) (held : note ∈ notes)
    (sender : note.child = some child) (grouped : s.Grouped note.idx) :
    child ∈ s.history.members note.idx ∧ s.Complete child := by
  have under : 0 < s.inFlight note.idx child := by
    rw [State.inFlight_eq]
    refine Nat.lt_of_lt_of_le ?_
      (List.single_le_sum (fun _ _ => Nat.zero_le _) _ (List.mem_map_of_mem running))
    exact List.countP_pos_iff.mpr ⟨note, held, by simpa using sender⟩
  have tally := inv.tally note.idx grouped
  exact ⟨tally.mem_of_flight under, tally.ended_of_flight under⟩

namespace State.Statuses

variable (statuses : s.Statuses) (inv : s.Inv) (kept : Kept s s')

include statuses inv kept

theorem kept_notes {notes : List Note} {note : Note} {child : Nat}
    (running : .signaling notes ∈ s.running) (held : note ∈ notes)
    (sender : note.child = some child) (grouped' : s'.Grouped note.idx) :
    (s'.table child).status = note.status := by
  have used : s.history.phase note.idx ≠ .plain := by
    have shown := (inv.sound _ running note held).2
    rwa [sender] at shown
  have grouped := kept.grouped used grouped'
  obtain ⟨member, complete⟩ := inv.child_of_note running held sender grouped
  rw [kept.ended (inv.published note.idx grouped child member) complete]
  exact statuses.notes notes running note held child sender grouped

theorem kept_merging {work : Merging} (running : .merging work ∈ s.running)
    (same : s'.history.notified work.pIdx = s.history.notified work.pIdx) :
    s'.Carries work.pIdx work.parentStatus :=
  (statuses.merging work running).mono inv kept (.inl (inv.sound _ running).phase) same

theorem kept_merged {pIdx : Nat} (merged : s.history.phase pIdx = .merged)
    (same : s'.history.notified pIdx = s.history.notified pIdx)
    (status : (s'.table pIdx).status = (s.table pIdx).status) :
    s'.Carries pIdx (s'.table pIdx).status := by
  rw [status]
  exact (statuses.merged pIdx merged).mono inv kept (.inr merged) same

end State.Statuses

namespace State.Statuses

theorem create (statuses : s.Statuses) (inv : s.Inv) {idx handle : Nat}
    (free : s.bitmap idx = false)
    (kept : Kept s
      { s with bitmap := put s.bitmap idx true, table := put s.table idx (.active handle) }) :
    State.Statuses
      { s with bitmap := put s.bitmap idx true, table := put s.table idx (.active handle) } := by
  have unborn : ¬ s.Created idx := fun created => by
    rw [created.2] at free
    cases free
  refine
    { unborn := fun j absent => ?_
      above := statuses.above
      given := fun j created phase => ?_
      merged := fun pIdx merged => ?_
      merging := fun work running => statuses.kept_merging inv kept running rfl
      notes := fun notes running note held child sender grouped =>
        statuses.kept_notes inv kept running held sender grouped }
  · refine statuses.unborn j fun created => absent ⟨created.1, ?_⟩
    have differs : j ≠ idx := fun same => unborn (same ▸ created)
    exact (put_other differs).trans created.2
  · by_cases same : j = idx
    · subst same
      simpa [Coredata.active] using statuses.unborn j unborn
    · simp only [put_other same]
      exact statuses.given j ⟨created.1, (put_other same).symm.trans created.2⟩ phase
  · have differs : pIdx ≠ idx := fun same =>
      unborn (same ▸ inv.phased pIdx (by simp [show s.history.phase pIdx = _ from merged]))
    exact statuses.kept_merged inv kept merged rfl
      (by simp only [put_other differs])

theorem wait (statuses : s.Statuses) (inv : s.Inv) {idx : Nat} {waiters waited : CoreId → Bool}
    (kept : Kept s { s with
      table := put s.table idx { s.table idx with waiters := waiters }
      history := { s.history with waited := put s.history.waited idx waited } }) :
    State.Statuses { s with
      table := put s.table idx { s.table idx with waiters := waiters }
      history := { s.history with waited := put s.history.waited idx waited } } := by
  have same : ∀ j, (put s.table idx { s.table idx with waiters := waiters } j).status =
      (s.table j).status := fun j => by
    by_cases equal : j = idx
    · rw [equal, put_same]
    · rw [put_other equal]
  refine
    { unborn := statuses.unborn
      above := statuses.above
      given := fun j created phase => ?_
      merged := fun pIdx merged => statuses.kept_merged inv kept merged rfl (same pIdx)
      merging := fun work running => statuses.kept_merging inv kept running rfl
      notes := fun notes running note held child sender grouped =>
        statuses.kept_notes inv kept running held sender grouped }
  simp only [same]
  exact statuses.given j created phase

theorem update (statuses : s.Statuses) (inv : s.Inv) {idx status : Nat}
    (kept : Kept s
      { s with running := s.running ++ [.signaling [⟨idx, status, none⟩]] }) :
    State.Statuses { s with running := s.running ++ [.signaling [⟨idx, status, none⟩]] } := by
  refine
    { unborn := statuses.unborn
      above := statuses.above
      given := statuses.given
      merged := fun pIdx merged => statuses.kept_merged inv kept merged rfl rfl
      merging := fun work running => ?_
      notes := fun notes running note held child sender grouped => ?_ }
  · rcases List.mem_append.mp running with old | new
    · exact statuses.kept_merging inv kept old rfl
    · cases List.mem_singleton.mp new
  · rcases List.mem_append.mp running with old | new
    · exact statuses.kept_notes inv kept old held sender grouped
    · cases List.mem_singleton.mp new
      cases List.mem_singleton.mp held
      cases sender

theorem merge (statuses : s.Statuses) (inv : s.Inv) {idxList : List Nat} {pIdx : Nat}
    (fresh : s.Fresh pIdx)
    (kept : Kept s { s with
      running := s.running ++ [.merging ⟨pIdx, [], idxList, 0, SYNX_STATE_ACTIVE⟩]
      history := { s.history with phase := put s.history.phase pIdx .merging } }) :
    State.Statuses { s with
      running := s.running ++ [.merging ⟨pIdx, [], idxList, 0, SYNX_STATE_ACTIVE⟩]
      history := { s.history with phase := put s.history.phase pIdx .merging } } := by
  refine
    { unborn := statuses.unborn
      above := statuses.above
      given := fun j created phase => ?_
      merged := fun q merged => ?_
      merging := fun work running => ?_
      notes := fun notes running note held child sender grouped => ?_ }
  · have differs : j ≠ pIdx := fun same => by simp [same] at phase
    exact statuses.given j created (by simpa only [put_other differs] using phase)
  · have differs : q ≠ pIdx := fun same => by simp [same] at merged
    exact statuses.kept_merged inv kept (by simpa only [put_other differs] using merged) rfl rfl
  · rcases List.mem_append.mp running with old | new
    · exact statuses.kept_merging inv kept old rfl
    · cases List.mem_singleton.mp new
      refine ⟨fun signaled => absurd rfl signaled, fun child heard => ?_⟩
      simp [(inv.plain pIdx fresh.plain).2] at heard
  · rcases List.mem_append.mp running with old | new
    · exact statuses.kept_notes inv kept old held sender grouped
    · cases List.mem_singleton.mp new

section Signal

variable {status : Nat} {notes : List Note} {given : Nat → Option Nat} {sent : List Message}

theorem notesFor_status {status idx : Nat} {slots : List Nat} {note : Note} {child : Nat}
    (member : note ∈ notesFor idx status slots) (sender : note.child = some child) :
    child = idx ∧ note.status = status := by
  obtain ⟨pIdx, -, rfl⟩ := List.mem_map.mp member
  exact ⟨(Option.some.inj sender).symm, rfl⟩

theorem signalLeaf (statuses : s.Statuses) (inv : s.Inv) {idx : Nat}
    (here : s.running[k]? = some (.signaling (⟨idx, status, none⟩ :: notes)))
    (check : updateStatusCheck (s.table idx) = .proceed)
    (kept : Kept s { s with
      table := put s.table idx { s.table idx with status := status, waiters := fun _ => false }
      running := s.running.set k
        (.signaling (notesFor idx status (s.table idx).parents.slots ++ notes))
      history := { s.history with given := put s.history.given idx (some status), sent := sent } }) :
    State.Statuses { s with
      table := put s.table idx { s.table idx with status := status, waiters := fun _ => false }
      running := s.running.set k
        (.signaling (notesFor idx status (s.table idx).parents.slots ++ notes))
      history := { s.history with
        given := put s.history.given idx (some status), sent := sent } } := by
  obtain ⟨none, active⟩ := updateStatusCheck_proceed check
  have created : s.Created idx := Decidable.by_contra fun absent => by
    rw [(inv.clean idx absent).status] at active
    cases active
  have signals := (inv.sound_of_get here ⟨idx, status, Option.none⟩ (List.mem_cons_self ..)).1
  refine
    { unborn := fun j absent => ?_
      above := fun j status' told => ?_
      given := fun j created phase => ?_
      merged := fun pIdx merged => ?_
      merging := fun work running => ?_
      notes := fun notes' running note held child sender grouped => ?_ }
  · have differs : j ≠ idx := fun same => absent (same ▸ created)
    exact (put_other differs).trans (statuses.unborn j absent)
  · by_cases same : j = idx
    · subst same
      simp only [put_same] at told
      exact Option.some.inj told ▸ signals
    · simp only [put_other same] at told
      exact statuses.above j status' told
  · by_cases same : j = idx
    · subst same
      simp only [put_same, if_neg (Nat.ne_of_gt signals)]
    · simp only [put_other same]
      exact statuses.given j created phase
  · have differs : pIdx ≠ idx := fun same =>
      inv.settled idx (same ▸ merged) none active
    exact statuses.kept_merged inv kept merged rfl (by simp only [put_other differs])
  · rcases List.mem_or_eq_of_mem_set running with old | new
    · exact statuses.kept_merging inv kept old rfl
    · cases new
  · rcases List.mem_or_eq_of_mem_set running with old | new
    · exact statuses.kept_notes inv kept old held sender grouped
    · cases new
      rcases List.mem_append.mp held with sent | rest
      · obtain ⟨rfl, equal⟩ := notesFor_status sent sender
        simp only [put_same, equal]
      · exact statuses.kept_notes inv kept (List.mem_of_getElem? here)
          (List.mem_cons_of_mem _ rest) sender grouped

theorem carries_signalChild (statuses : s.Statuses) (inv : s.Inv) (kept : Kept s s')
    {pIdx child : Nat}
    (here : s.running[k]? = some (.signaling (⟨pIdx, status, some child⟩ :: notes)))
    (merged : s.history.phase pIdx = .merged)
    (heard : s'.history.notified pIdx = s.history.notified pIdx ++ [child])
    (members : s'.history.members pIdx = s.history.members pIdx)
    (phase : s'.history.phase child = s.history.phase child) :
    s'.Carries pIdx (mergedStatus (s.table pIdx).status status) := by
  have grouped : s.Grouped pIdx := .inr merged
  have running := List.mem_of_getElem? here
  have signals := (inv.sound_of_get here ⟨pIdx, status, some child⟩ (List.mem_cons_self ..)).1
  obtain ⟨member, complete⟩ :=
    inv.child_of_note running (List.mem_cons_self ..) rfl grouped
  have published := inv.published pIdx grouped child member
  have told : (s.table child).status = status :=
    statuses.notes _ running ⟨pIdx, status, some child⟩ (List.mem_cons_self ..) child rfl grouped
  have before := statuses.merged pIdx merged
  have older := before.mono inv kept grouped
  have carried : ∃ idx, s'.Below pIdx idx ∧ s'.history.given idx = some status := by
    have signaled : (s.table child).status ≠ SYNX_STATE_ACTIVE := told ▸ Nat.ne_of_gt signals
    rcases statuses.source published signaled with ⟨plain, given⟩ | ⟨inner, idx, below, given⟩
    · exact ⟨child, .leaf (members ▸ member) (phase.trans plain), told ▸ kept.given given⟩
    · exact ⟨idx, .under (members ▸ member) (kept.below (.inr inner) below),
        told ▸ kept.given given⟩
  have status' : (s'.table child).status = status :=
    (kept.ended published complete).trans told
  have errors : ∀ other ∈ s.history.notified pIdx, isError (s'.table other).status = true →
      isError (s.table pIdx).status = true := fun other heard error => by
    have tally := inv.tally pIdx grouped
    rw [kept.ended (inv.published pIdx grouped other (tally.mem_of_reported heard))
      (tally.ended_of_reported heard)] at error
    exact before.errors other heard error
  rcases mergedStatus_cases (s.table pIdx).status status with
    ⟨equal, replaces⟩ | ⟨equal, own, mild⟩
  · rw [equal]
    refine ⟨fun _ => carried, fun other among error => ?_⟩
    rw [heard] at among
    rcases List.mem_append.mp among with old | new
    · have known := errors other old error
      refine replaces.resolve_left fun active => ?_
      rw [active, isError_active] at known
      cases known
    · rw [List.mem_singleton.mp new, status'] at error
      exact error
  · rw [equal]
    refine ⟨fun _ => ?_, fun other among error => ?_⟩
    · obtain ⟨idx, below, given⟩ := before.origin own
      exact ⟨idx, kept.below grouped below, kept.given given⟩
    · rw [heard] at among
      rcases List.mem_append.mp among with old | new
      · exact errors other old error
      · rw [List.mem_singleton.mp new, status', mild] at error
        cases error

theorem signalChild (statuses : s.Statuses) (inv : s.Inv) {pIdx child : Nat} {obj : Coredata}
    {more : List Note}
    (here : s.running[k]? = some (.signaling (⟨pIdx, status, some child⟩ :: notes)))
    (merged : s.history.phase pIdx = .merged)
    (own : obj.status = mergedStatus (s.table pIdx).status status)
    (calls : more = if obj.numChild = 0 then notesFor pIdx status (s.table pIdx).parents.slots
      else [])
    (passed : obj.numChild = 0 → (s.table pIdx).parents.slots ≠ Parents.none.slots →
      mergedStatus (s.table pIdx).status status = status)
    (kept : Kept s { s with
      table := put s.table pIdx obj
      running := s.running.set k (.signaling (more ++ notes))
      history := { s.history with
        notified := put s.history.notified pIdx (s.history.notified pIdx ++ [child])
        sent := sent } }) :
    State.Statuses { s with
      table := put s.table pIdx obj
      running := s.running.set k (.signaling (more ++ notes))
      history := { s.history with
        notified := put s.history.notified pIdx (s.history.notified pIdx ++ [child])
        sent := sent } } := by
  refine
    { unborn := statuses.unborn
      above := statuses.above
      given := fun j created phase => ?_
      merged := fun q merged' => ?_
      merging := fun work running => ?_
      notes := fun notes' running note held source sender grouped => ?_ }
  · have differs : j ≠ pIdx := fun same =>
      absurd ((same ▸ merged).symm.trans phase) (by simp)
    simp only [put_other differs]
    exact statuses.given j created phase
  · by_cases same : q = pIdx
    · subst same
      simp only [put_same, own]
      exact statuses.carries_signalChild inv kept here merged put_same rfl rfl
    · exact statuses.kept_merged inv kept merged' (put_other same)
        (by simp only [put_other same])
  · rcases List.mem_or_eq_of_mem_set running with old | new
    · refine statuses.kept_merging inv kept old (put_other fun same => ?_)
      have phase := (inv.sound _ old).phase
      rw [same, merged] at phase
      cases phase
    · cases new
  · rcases List.mem_or_eq_of_mem_set running with old | new
    · exact statuses.kept_notes inv kept old held sender grouped
    · cases new
      rcases List.mem_append.mp held with sent | rest
      · rw [calls] at sent
        split at sent
        · obtain ⟨same, equal⟩ := notesFor_status sent sender
          have parents : (s.table pIdx).parents.slots ≠ Parents.none.slots := fun none => by
            simp [none, notesFor, Parents.none] at sent
          simp only [same, put_same, own, equal, passed ‹_› parents]
        · cases sent
      · exact statuses.kept_notes inv kept (List.mem_of_getElem? here)
          (List.mem_cons_of_mem _ rest) sender grouped

end Signal

section Merge

variable {work : Merging}

theorem carries_link (statuses : s.Statuses) (inv : s.Inv) (kept : Kept s s') {idx : Nat}
    (running : .merging work ∈ s.running) (published : s.Published idx)
    (heard : ∀ child ∈ s'.history.notified work.pIdx,
      child ∈ s.history.notified work.pIdx ∨ child = idx)
    (joined : idx ∈ s'.history.members work.pIdx)
    (phase : s'.history.phase idx = s.history.phase idx)
    (same : (s'.table idx).status = (s.table idx).status) :
    s'.Carries work.pIdx (statusWith work.parentStatus (s.table idx)) := by
  have grouped : s.Grouped work.pIdx := .inl (inv.sound _ running).phase
  have before := statuses.merging work running
  have errors : ∀ other ∈ s.history.notified work.pIdx,
      isError (s'.table other).status = true → isError work.parentStatus = true :=
    fun other among error => by
      have tally := inv.tally work.pIdx grouped
      rw [kept.ended (inv.published work.pIdx grouped other (tally.mem_of_reported among))
        (tally.ended_of_reported among)] at error
      exact before.errors other among error
  have carried : (s.table idx).status ≠ SYNX_STATE_ACTIVE →
      ∃ leaf, s'.Below work.pIdx leaf ∧ s'.history.given leaf = some (s.table idx).status :=
    fun signaled => by
      rcases statuses.source published signaled with ⟨plain, given⟩ | ⟨inner, leaf, below, given⟩
      · exact ⟨idx, .leaf joined (phase.trans plain), kept.given given⟩
      · exact ⟨leaf, .under joined (kept.below (.inr inner) below), kept.given given⟩
  have older : work.parentStatus ≠ SYNX_STATE_ACTIVE →
      ∃ leaf, s'.Below work.pIdx leaf ∧ s'.history.given leaf = some work.parentStatus :=
    fun signaled =>
      have ⟨leaf, below, given⟩ := before.origin signaled
      ⟨leaf, kept.below grouped below, kept.given given⟩
  unfold statusWith
  by_cases active : (s.table idx).status = SYNX_STATE_ACTIVE
  · rw [if_pos active]
    refine ⟨older, fun other among error => ?_⟩
    rcases heard other among with old | new
    · exact errors other old error
    · rw [new, same, active, isError_active] at error
      cases error
  · rw [if_neg active]
    by_cases wrong : isError (s.table idx).status = true
    · rw [if_pos wrong]
      exact ⟨fun _ => carried active, fun _ _ _ => wrong⟩
    · rw [if_neg wrong]
      by_cases first : work.parentStatus = SYNX_STATE_ACTIVE
      · rw [if_pos first]
        refine ⟨fun _ => carried active, fun other among error => ?_⟩
        rcases heard other among with old | new
        · have known := errors other old error
          rw [first, isError_active] at known
          cases known
        · rwa [new, same] at error
      · rw [if_neg first]
        refine ⟨older, fun other among error => ?_⟩
        rcases heard other among with old | new
        · exact errors other old error
        · rw [new, same] at error
          exact absurd error wrong

theorem link (statuses : s.Statuses) (inv : s.Inv) {idx : Nat} {rest : List Nat}
    (here : s.running[k]? = some (.merging work)) (next : work.rest = idx :: rest)
    (free : hasFreeSlot (s.table idx) = true)
    (kept : Kept s { (s.link work idx rest).1 with
      running := s.running.set k (s.link work idx rest).2 }) :
    State.Statuses { (s.link work idx rest).1 with
      running := s.running.set k (s.link work idx rest).2 } := by
  have running := List.mem_of_getElem? here
  have sound := inv.sound_of_get here
  have published : s.Published idx := sound.published idx (by simp [next])
  simp only [State.link, free, if_true] at kept ⊢
  have status : ∀ j, (put s.table idx (linkParent (s.table idx) work.pIdx) j).status =
      (s.table j).status := fun j => by
    by_cases same : j = idx
    · rw [same, put_same]
      rfl
    · rw [put_other same]
  have notified : ∀ {q}, q ≠ work.pIdx →
      (if countMember work.numChild (s.table idx) = work.numChild then
          put s.history.notified work.pIdx (s.history.notified work.pIdx ++ [idx])
        else s.history.notified) q = s.history.notified q := fun differs => by
    split
    · exact put_other differs
    · rfl
  refine
    { unborn := statuses.unborn
      above := statuses.above
      given := fun j created phase => by
        simp only [status]
        exact statuses.given j created phase
      merged := fun q merged => ?_
      merging := inv.forall_set
          (P := fun other => ∀ work', other = .merging work' → State.Carries _ work'.pIdx
            work'.parentStatus) here ?_ ?_ |> fun all work' member => all _ member work' rfl
      notes := fun notes' member note held sender source grouped => ?_ }
  · refine statuses.kept_merged inv kept merged (notified fun same => ?_) (status q)
    exact absurd ((same ▸ merged).symm.trans sound.phase) (by simp)
  · rintro work' ⟨⟩
    refine statuses.carries_link inv kept running published (fun child among => ?_) ?_ rfl
      (status idx)
    · simp only at among
      split at among
      · rw [put_same] at among
        exact (List.mem_append.mp among).imp_right List.mem_singleton.mp
      · exact .inl among
    · simp only [put_same]
      exact List.mem_append_right _ (List.mem_singleton_self _)
  · rintro other member distinct work' rfl
    exact statuses.kept_merging inv kept member
      (notified fun same => distinct work'.pIdx rfl (congrArg some same.symm))
  · rcases List.mem_or_eq_of_mem_set member with old | new
    · exact statuses.kept_notes inv kept old held source grouped
    · cases new

theorem fail (statuses : s.Statuses) (inv : s.Inv) {numChild : Nat}
    (kept : Kept s { s with
      running := s.running.set k (.undoing work.idxList work.pIdx numChild)
      history := { s.history with phase := put s.history.phase work.pIdx .failed } }) :
    State.Statuses { s with
      running := s.running.set k (.undoing work.idxList work.pIdx numChild)
      history := { s.history with phase := put s.history.phase work.pIdx .failed } } := by
  refine
    { unborn := statuses.unborn
      above := statuses.above
      given := fun j created phase => ?_
      merged := fun q merged => ?_
      merging := fun work' running => ?_
      notes := fun notes running note held child sender grouped => ?_ }
  · have differs : j ≠ work.pIdx := fun same => by simp [same] at phase
    exact statuses.given j created (by simpa only [put_other differs] using phase)
  · have differs : q ≠ work.pIdx := fun same => by simp [same] at merged
    exact statuses.kept_merged inv kept (by simpa only [put_other differs] using merged) rfl rfl
  · rcases List.mem_or_eq_of_mem_set running with old | new
    · exact statuses.kept_merging inv kept old rfl
    · cases new
  · rcases List.mem_or_eq_of_mem_set running with old | new
    · exact statuses.kept_notes inv kept old held sender grouped
    · cases new

theorem add (statuses : s.Statuses) (inv : s.Inv)
    (here : s.running[k]? = some (.merging work))
    (kept : Kept s { s.add work with running := s.running.set k (.signaling []) }) :
    State.Statuses { s.add work with running := s.running.set k (.signaling []) } := by
  have member := List.mem_of_getElem? here
  have sound := inv.sound_of_get here
  have created := inv.phased work.pIdx (by simp [sound.phase])
  refine
    { unborn := statuses.unborn
      above := statuses.above
      given := fun j created phase => ?_
      merged := fun q merged => ?_
      merging := fun work' running => ?_
      notes := fun notes running note held child sender grouped => ?_ }
  · have differs : j ≠ work.pIdx := fun same => by simp [same, State.add] at phase
    simp only [State.add, put_other differs] at phase ⊢
    exact statuses.given j created phase
  · by_cases same : q = work.pIdx
    · subst same
      simp only [State.add, put_same, addChildren]
      exact statuses.kept_merging inv kept member rfl
    · simp only [State.add, put_other same] at merged
      exact statuses.kept_merged inv kept merged rfl (by simp only [State.add, put_other same])
  · rcases List.mem_or_eq_of_mem_set running with old | new
    · exact statuses.kept_merging inv kept old rfl
    · cases new
  · rcases List.mem_or_eq_of_mem_set running with old | new
    · exact statuses.kept_notes inv kept old held sender grouped
    · cases new
      cases held

end Merge

theorem unlink (statuses : s.Statuses) (inv : s.Inv) {idxList : List Nat} {pIdx numChild : Nat}
    {idx : Nat}
    (kept : Kept s { s with
      table := put s.table idx (unlinkParent (s.table idx) pIdx)
      running := s.running.set k (.undoing idxList pIdx numChild) }) :
    State.Statuses { s with
      table := put s.table idx (unlinkParent (s.table idx) pIdx)
      running := s.running.set k (.undoing idxList pIdx numChild) } := by
  have status : ∀ j, (put s.table idx (unlinkParent (s.table idx) pIdx) j).status =
      (s.table j).status := fun j => by
    by_cases same : j = idx
    · rw [same, put_same]
      rfl
    · rw [put_other same]
  refine
    { unborn := statuses.unborn
      above := statuses.above
      given := fun j created phase => ?_
      merged := fun q merged => statuses.kept_merged inv kept merged rfl (status q)
      merging := fun work running => ?_
      notes := fun notes running note held child sender grouped => ?_ }
  · simp only [status]
    exact statuses.given j created phase
  · rcases List.mem_or_eq_of_mem_set running with old | new
    · exact statuses.kept_merging inv kept old rfl
    · cases new
  · rcases List.mem_or_eq_of_mem_set running with old | new
    · exact statuses.kept_notes inv kept old held sender grouped
    · cases new

theorem signal (statuses : s.Statuses) (inv : s.Inv) {note : Note} {notes : List Note}
    (here : s.running[k]? = some (.signaling (note :: notes))) (due : note.Due s)
    (faithful : note.Faithful s)
    (kept : Kept s { (s.signal note).1 with
      running := s.running.set k (.signaling ((s.signal note).2 ++ notes)) }) :
    State.Statuses { (s.signal note).1 with
      running := s.running.set k (.signaling ((s.signal note).2 ++ notes)) } := by
  obtain ⟨idx, status, child⟩ := note
  cases child with
  | none =>
    have leaf := updateStatusLocked_leaf status (updateStatusCheck_proceed due).1
    simp only [State.signal, leaf] at kept ⊢
    exact statuses.signalLeaf inv here due kept
  | some child =>
    obtain ⟨merged, children⟩ := inv.pending_of_note here due
    have refs := inv.refs idx (inv.phased idx (by simp [merged]))
    rw [if_neg children] at refs
    by_cases last : (s.table idx).numChild = 1
    · have locked := updateStatusLocked_last status last refs
      simp only [State.signal, locked, Bool.false_eq_true, if_false] at kept ⊢
      exact statuses.signalChild inv here merged rfl rfl (fun _ => faithful.passed last) kept
    · have locked := updateStatusLocked_more status children last
      have more : (s.table idx).numChild - 1 ≠ 0 := by omega
      simp only [State.signal, locked, Bool.false_eq_true, if_false] at kept ⊢
      exact statuses.signalChild inv here merged rfl (if_neg more).symm
        (fun none => absurd none more) kept

theorem change (statuses : s.Statuses) (inv : s.Inv)
    (change : Change s (fun note => note.Due s ∧ note.Faithful s) s') : s'.Statuses := by
  have kept := statuses.kept inv (change.mono fun _ good => good.1)
  cases change with
  | stay => exact statuses
  | create valid _ free made =>
    obtain rfl := initCoredata_eq made
    exact statuses.create inv free kept
  | refuse _ free refused =>
    refine absurd refused ((inv.clean _ fun created => ?_).init_ne_none _)
    rw [created.2] at free
    cases free
  | wait id shown pending => exact statuses.wait inv kept
  | update => exact statuses.update inv kept
  | merge fresh => exact statuses.merge inv fresh kept
  | signal here good => exact statuses.signal inv here good.1 good.2 kept
  | link here next free => exact statuses.link inv here next free kept
  | fail numChild => exact statuses.fail inv kept
  | add here last => exact statuses.add inv here kept
  | unlink idx here => exact statuses.unlink inv kept

theorem initial : State.initial.Statuses where
  unborn := fun _ _ => rfl
  above := fun _ _ told => nomatch told
  given := fun _ created => absurd (beq_iff_eq.mp created.2) created.1
  merged := fun _ merged => nomatch merged
  merging := fun _ running => nomatch running
  notes := fun _ running => nomatch running

end State.Statuses

end Kept

end VendorModules.Synx
