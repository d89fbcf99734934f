import VendorModules.Synx.Delivered
import VendorModules.Synx.Statuses

namespace VendorModules.Synx

open Lib

variable {s s' : State}

/-! ## Members come before their composite -/

def State.Ranked (s : State) : Prop :=
  ∃ rank : Nat → Nat, ∀ pIdx, s.Grouped pIdx → ∀ idx ∈ s.history.members pIdx,
    rank idx < rank pIdx

namespace State.Ranked

theorem of_same (ranked : s.Ranked) (grouped : ∀ pIdx, s'.Grouped pIdx →
    s.Grouped pIdx ∨ s'.history.members pIdx = [])
    (members : s'.history.members = s.history.members) : s'.Ranked := by
  obtain ⟨rank, below⟩ := ranked
  refine ⟨rank, fun pIdx now idx member => ?_⟩
  rcases grouped pIdx now with before | none
  · exact below pIdx before idx (members ▸ member)
  · rw [none] at member
    cases member

theorem change (ranked : s.Ranked) (inv : s.Inv) (change : Change s (Note.Due s) s') :
    s'.Ranked := by
  cases change with
  | stay => exact ranked
  | create | refuse | wait | update | signal | unlink =>
    exact ranked.of_same (fun _ now => .inl now) rfl
  | @merge idxList pIdx fresh =>
    refine ranked.of_same (fun q now => ?_) rfl
    by_cases same : q = pIdx
    · exact .inr (same ▸ (inv.plain pIdx fresh.plain).1)
    · exact .inl (by simpa only [State.Grouped, put_other same] using now)
  | @fail k work numChild here =>
    refine ranked.of_same (fun q now => .inl ?_) rfl
    by_cases same : q = work.pIdx
    · simp [State.Grouped, same] at now
    · simpa only [State.Grouped, put_other same] using now
  | @add k work here last =>
    refine ranked.of_same (fun q now => .inl ?_) rfl
    by_cases same : q = work.pIdx
    · exact .inl (same ▸ (inv.sound_of_get here).phase)
    · simpa only [State.Grouped, State.add, put_other same] using now
  | @link k idx work rest here next free =>
    have sound := inv.sound_of_get here
    have published : s.Published idx := sound.published idx (by simp [next])
    obtain ⟨rank, below⟩ := ranked
    -- nothing has the target of a merge for a member, so it may rise above a new one
    have apart : ∀ {q m}, s.Grouped q → m ∈ s.history.members q → m ≠ work.pIdx :=
      fun grouped member same =>
        (inv.published _ grouped _ member).2 (.inl (same ▸ sound.phase))
    have differs : idx ≠ work.pIdx := fun same => published.2 (.inl (same ▸ sound.phase))
    simp only [State.link, free, if_true]
    refine ⟨put rank work.pIdx (max (rank work.pIdx) (rank idx + 1)), fun q now m member => ?_⟩
    have grouped : s.Grouped q := now
    by_cases same : q = work.pIdx
    · subst same
      simp only [put_same] at member ⊢
      rcases List.mem_append.mp member with old | new
      · rw [put_other (apart grouped old)]
        have := below _ grouped m old
        omega
      · rw [List.mem_singleton.mp new, put_other differs]
        omega
    · simp only [put_other same] at member ⊢
      rw [put_other (apart grouped member)]
      exact below q grouped m member

theorem initial : State.initial.Ranked :=
  ⟨fun _ => 0, fun _ grouped => absurd rfl grouped.ne_plain⟩

end State.Ranked

/-! ## One operation at a time -/

def Activity.notes : Activity → List Note
  | .signaling notes => notes
  | _ => []

/-- At most one operation is under way, and an update has not signaled anything yet when it
still has its own call to make. -/
structure State.Alone (s : State) : Prop where
  others : ∃ k : Nat, ∀ j (activity : Activity), s.running[j]? = some activity → j ≠ k →
    activity.Finished
  first : ∀ activity ∈ s.running, ∀ note ∈ activity.notes, note.child = none →
    activity = .signaling [note] ∧ updateStatusCheck (s.table note.idx) = .proceed

theorem notes_of_finished {activity : Activity} (finished : activity.Finished) :
    activity.notes = [] := by
  cases activity with
  | signaling notes => exact finished
  | merging work => cases finished
  | undoing idxList pIdx numChild => rfl

theorem next_unfinished {activity : Activity} {next : State × Activity}
    (taken : activity.next s = some next) : ¬ activity.Finished := by
  cases activity with
  | signaling notes =>
    rintro rfl
    cases taken
  | merging work => exact id
  | undoing idxList pIdx numChild =>
    rintro rfl
    cases taken

theorem next_notes {activity : Activity} {next : State × Activity}
    (taken : activity.next s = some next) :
    ∀ note ∈ next.2.notes, note.child = none → ∃ head rest,
      activity = .signaling (head :: rest) ∧ note ∈ rest := by
  intro note member caller
  cases activity with
  | signaling notes =>
    cases notes with
    | nil => cases taken
    | cons head rest =>
      cases taken
      rcases List.mem_append.mp member with sent | later
      · obtain ⟨pIdx, -, rfl⟩ := List.mem_map.mp sent
        cases caller
      · exact ⟨head, rest, rfl, later⟩
  | merging work =>
    cases rest : work.rest with
    | nil =>
      simp only [Activity.next, rest, Option.some.injEq] at taken
      subst taken
      cases member
    | cons idx rest' =>
      simp only [Activity.next, rest] at taken
      split at taken
      · cases Option.some.inj taken
        simp only [State.link] at member
        split at member <;> cases member
      · cases Option.some.inj taken
        cases member
  | undoing idxList pIdx numChild =>
    cases numChild with
    | zero => cases taken
    | succ numChild =>
      cases taken
      cases member

namespace State.Alone

theorem append (quiet : s.Quiet) {activity : Activity}
    (moved : s'.running = s.running ++ [activity])
    (first : ∀ note ∈ activity.notes, note.child = none →
      activity = .signaling [note] ∧ updateStatusCheck (s'.table note.idx) = .proceed) :
    s'.Alone := by
  refine ⟨⟨s.running.length, fun j other here differs => ?_⟩, fun other member => ?_⟩
  · rw [moved] at here
    by_cases inside : j < s.running.length
    · rw [List.getElem?_append_left inside] at here
      exact quiet other (List.mem_of_getElem? here)
    · rw [List.getElem?_append_right (by omega)] at here
      have : j - s.running.length ≠ 0 := by omega
      simp [this] at here
  · rw [moved] at member
    rcases List.mem_append.mp member with old | new
    · rw [notes_of_finished (quiet other old)]
      exact fun note held => nomatch held
    · obtain rfl := List.mem_singleton.mp new
      exact first

theorem of_quiet (quiet : s.Quiet) (same : s'.running = s.running) : s'.Alone :=
  ⟨⟨0, fun _ activity here _ => quiet activity (same ▸ List.mem_of_getElem? here)⟩,
    fun activity member => by
      rw [notes_of_finished (quiet activity (same ▸ member))]
      exact fun note held => nomatch held⟩

theorem advance (alone : s.Alone) {k : Nat} {activity : Activity} {next : State × Activity}
    (here : s.running[k]? = some activity) (taken : activity.next s = some next) :
    State.Alone { next.1 with running := s.running.set k next.2 } := by
  obtain ⟨k', others⟩ := alone.others
  have unfinished := next_unfinished taken
  have only : k = k' := Decidable.by_contra fun differs =>
    unfinished (others k activity here differs)
  subst only
  refine ⟨⟨k, fun j other there differs => ?_⟩, fun other member note held caller => ?_⟩
  · rw [List.getElem?_set_ne differs.symm] at there
    exact others j other there differs
  · obtain ⟨j, there⟩ := List.getElem?_of_mem member
    by_cases same : j = k
    · subst same
      have bound := (List.getElem?_eq_some_iff.mp here).1
      rw [List.getElem?_set_self bound] at there
      cases there
      obtain ⟨head, rest, rfl, later⟩ := next_notes taken note held caller
      have single := (alone.first _ (List.mem_of_getElem? here) note
        (List.mem_cons_of_mem _ later) caller).1
      simp only [Activity.signaling.injEq, List.cons.injEq] at single
      rw [single.2] at later
      cases later
    · rw [List.getElem?_set_ne (Ne.symm same)] at there
      rw [notes_of_finished (others j other there same)] at held
      cases held

theorem step (alone : s.Alone) {move : Move} (oneByOne : OneByOne s move)
    (taken : Synx.step s move = some s') : s'.Alone := by
  cases move with
  | create handle =>
    simp only [Synx.step] at taken
    split at taken
    · cases taken
    · split at taken <;> exact Option.some.inj taken ▸ of_quiet oneByOne rfl
  | testWait idx id =>
    simp only [Synx.step] at taken
    split at taken <;> exact Option.some.inj taken ▸ of_quiet oneByOne rfl
  | update idx status =>
    simp only [Synx.step] at taken
    split at taken
    · exact Option.some.inj taken ▸ of_quiet oneByOne rfl
    · split at taken
      · rename_i check
        refine Option.some.inj taken ▸ append oneByOne rfl fun note held _ => ?_
        obtain rfl := List.mem_singleton.mp held
        exact ⟨rfl, check⟩
      · exact Option.some.inj taken ▸ of_quiet oneByOne rfl
  | merge idxList pIdx =>
    simp only [Synx.step] at taken
    split at taken
    · exact Option.some.inj taken ▸ of_quiet oneByOne rfl
    · exact Option.some.inj taken ▸ append oneByOne rfl fun note held _ => by cases held
  | advance k =>
    simp only [Synx.step, Option.bind_eq_some_iff, Option.map_eq_some_iff] at taken
    obtain ⟨activity, here, next, moved, rfl⟩ := taken
    exact alone.advance here moved

theorem timely (alone : s.Alone) {move : Move} (orderly : Orderly s move) :
    Heads s (fun note => note.Due s ∧ note.Faithful s) move := by
  cases move with
  | advance k =>
    intro note first
    have faithful : note.Faithful s := orderly.2 note first
    refine ⟨?_, faithful⟩
    obtain ⟨activity, here, head⟩ := Option.bind_eq_some_iff.mp first
    cases activity with
    | signaling notes =>
      cases notes with
      | nil => cases head
      | cons note' notes =>
        cases head
        unfold Note.Due
        split
        · exact (alone.first _ (List.mem_of_getElem? here) note (List.mem_cons_self ..)
            ‹_›).2
        · exact faithful.due (by simp [‹note.child = _›])
    | merging work => cases head
    | undoing idxList pIdx numChild => cases head
  | create | testWait | update | merge => trivial

end State.Alone

/-! ## Operations come to an end -/

def Activity.weight : Activity → Nat
  | .signaling notes => (notes.map fun note => if note.child = none then 6 else 1).sum
  | .merging work => 5 * work.numChild + 7 * work.rest.length + 1
  | .undoing _ _ numChild => numChild

def State.awaited (s : State) : Nat := ∑ idx ∈ Finset.range SYNX_GLOBAL_MAX_OBJS,
  (s.table idx).numChild

def State.work (s : State) : Nat := 5 * s.awaited + (s.running.map Activity.weight).sum

theorem awaited_put (s' : State) {idx : Nat} {obj : Coredata} (valid : idx < SYNX_GLOBAL_MAX_OBJS)
    (moved : s'.table = put s.table idx obj) :
    s'.awaited + (s.table idx).numChild = s.awaited + obj.numChild := by
  have member : idx ∈ Finset.range SYNX_GLOBAL_MAX_OBJS := Finset.mem_range.mpr valid
  have rest : ∑ j ∈ (Finset.range SYNX_GLOBAL_MAX_OBJS).erase idx,
      (put s.table idx obj j).numChild =
      ∑ j ∈ (Finset.range SYNX_GLOBAL_MAX_OBJS).erase idx, (s.table j).numChild :=
    Finset.sum_congr rfl fun j other => by rw [put_other (Finset.ne_of_mem_erase other)]
  rw [State.awaited, State.awaited, moved, ← Finset.add_sum_erase _ _ member,
    ← Finset.add_sum_erase _ _ member, rest, put_same]
  omega

theorem awaited_put_same (s' : State) {idx : Nat} {obj : Coredata}
    (moved : s'.table = put s.table idx obj) (same : obj.numChild = (s.table idx).numChild) :
    s'.awaited = s.awaited := by
  refine Finset.sum_congr rfl fun j _ => ?_
  rw [moved]
  by_cases equal : j = idx
  · rw [equal, put_same, same]
  · rw [put_other equal]

theorem weight_notesFor (idx status : Nat) (parents : Parents) (notes : List Note) :
    (Activity.signaling (notesFor idx status parents.slots ++ notes)).weight ≤
      4 + (Activity.signaling notes).weight := by
  have ones : ((notesFor idx status parents.slots).map fun note =>
      if note.child = none then 6 else 1).sum = (notesFor idx status parents.slots).length := by
    simp [notesFor, Function.comp_def]
  have few : (notesFor idx status parents.slots).length ≤ 4 := by
    have all := List.length_filter_le (fun slot => decide (slot ≠ 0)) parents.slots
    rw [parents.size] at all
    simpa [notesFor, SYNX_GLOBAL_MAX_PARENTS] using all
  simp only [Activity.weight, List.map_append, List.sum_append]
  omega

theorem next_work (inv : s.Inv) {k : Nat} {activity : Activity} {next : State × Activity}
    (here : s.running[k]? = some activity) (due : ∀ note ∈ activity.head, note.Due s)
    (taken : activity.next s = some next) :
    5 * next.1.awaited + next.2.weight < 5 * s.awaited + activity.weight := by
  cases activity with
  | signaling notes =>
    cases notes with
    | nil => cases taken
    | cons note notes =>
      simp only [Activity.next, Option.some.injEq] at taken
      subst taken
      have due := due note rfl
      obtain ⟨idx, status, child⟩ := note
      cases child with
      | none =>
        obtain ⟨none, active⟩ := updateStatusCheck_proceed due
        have leaf := updateStatusLocked_leaf status none
        have calls := weight_notesFor idx status (s.table idx).parents notes
        have awaited : (s.signal ⟨idx, status, Option.none⟩).1.awaited = s.awaited := by
          simp only [State.signal, leaf]
          exact awaited_put_same _ rfl rfl
        rw [awaited]
        simp only [State.signal, leaf]
        simp only [Activity.weight, List.map_cons, List.sum_cons, if_true] at calls ⊢
        omega
      | some child =>
        obtain ⟨merged, children⟩ := inv.pending_of_note here due
        have created : s.Created idx := inv.phased idx (by simp [merged])
        have refs := inv.refs idx created
        rw [if_neg children] at refs
        have calls := weight_notesFor idx status (s.table idx).parents notes
        by_cases last : (s.table idx).numChild = 1
        · have locked := updateStatusLocked_last status last refs
          have sum := awaited_put (s.signal ⟨idx, status, some child⟩).1
            (inv.valid idx created) rfl
          simp only [locked] at sum
          generalize (s.signal ⟨idx, status, some child⟩).1.awaited = left at sum ⊢
          simp only [State.signal, locked]
          simp only [Activity.weight, List.map_cons, List.sum_cons, reduceCtorEq,
            if_false] at calls ⊢
          omega
        · have locked := updateStatusLocked_more status children last
          have sum := awaited_put (s.signal ⟨idx, status, some child⟩).1
            (inv.valid idx created) rfl
          simp only [locked] at sum
          generalize (s.signal ⟨idx, status, some child⟩).1.awaited = left at sum ⊢
          simp only [State.signal, locked, notesFor, List.filter_nil, List.map_nil,
            List.nil_append, Activity.weight, List.map_cons, List.sum_cons, reduceCtorEq,
            if_false]
          omega
  | merging work =>
    have sound := inv.sound_of_get here
    cases rest : work.rest with
    | nil =>
      simp only [Activity.next, rest, Option.some.injEq] at taken
      subst taken
      have created := inv.phased work.pIdx (by simp [sound.phase])
      have sum := awaited_put (s.add work) (inv.valid _ created) rfl
      have below := Nat.mod_le ((s.table work.pIdx).numChild + work.numChild) (2 ^ 16)
      simp only [addChildren] at sum
      simp only [Activity.weight, rest, List.map_nil, List.sum_nil, List.length_nil]
      omega
    | cons idx rest' =>
      simp only [Activity.next, rest] at taken
      have counts := countMember_eq (s := s) work.numChild idx
      have counted : countMember work.numChild (s.table idx) ≤ work.numChild + 1 := by
        split at counts <;> omega
      split at taken
      · cases Option.some.inj taken
        simp only [State.link]
        split
        · have awaited := awaited_put_same { s with
            table := put s.table idx (linkParent (s.table idx) work.pIdx) } rfl rfl
          simp only [Activity.weight, rest, List.length_cons]
          simp only [State.awaited] at awaited ⊢
          omega
        · simp only [Activity.weight, rest, List.length_cons]
          simp only [State.awaited]
          omega
      · cases Option.some.inj taken
        simp only [Activity.weight, rest, List.length_cons]
        simp only [State.awaited]
        omega
  | undoing idxList pIdx numChild =>
    cases numChild with
    | zero => cases taken
    | succ numChild =>
      cases taken
      have awaited := awaited_put_same { s with
        table := put s.table (idxList.getD numChild 0)
          (unlinkParent (s.table (idxList.getD numChild 0)) pIdx) } rfl rfl
      rw [awaited]
      simp [Activity.weight]

theorem advance_work (inv : s.Inv) {k : Nat} (due : Heads s (Note.Due s) (.advance k))
    (taken : step s (.advance k) = some s') : s'.work < s.work := by
  simp only [step, Option.bind_eq_some_iff, Option.map_eq_some_iff] at taken
  obtain ⟨activity, here, next, moved, rfl⟩ := taken
  have fewer := next_work inv here
    (fun note first => due note (Option.bind_eq_some_iff.mpr ⟨activity, here, first⟩)) moved
  have weights := @sum_map_set_add _ s.running k activity next.2 here Activity.weight
  simp only [State.work]
  change 5 * next.1.awaited + _ < _
  omega

theorem advance_enabled {k : Nat} {activity : Activity} (here : s.running[k]? = some activity)
    (unfinished : ¬ activity.Finished) : (step s (.advance k)).isSome := by
  have next : (activity.next s).isSome := by
    cases activity with
    | signaling notes =>
      cases notes with
      | nil => exact absurd rfl unfinished
      | cons note notes => rfl
    | merging work =>
      cases rest : work.rest with
      | nil => simp [Activity.next, rest]
      | cons idx rest' =>
        simp only [Activity.next, rest]
        split <;> rfl
    | undoing idxList pIdx numChild =>
      cases numChild with
      | zero => exact absurd rfl unfinished
      | succ numChild => rfl
  simpa [step, here] using next

/-! ## The outcome -/

theorem inFlight_of_quiet (quiet : s.Quiet) (pIdx child : Nat) : s.inFlight pIdx child = 0 := by
  rw [State.inFlight_eq]
  refine List.sum_eq_zero fun n member => ?_
  obtain ⟨activity, running, rfl⟩ := List.mem_map.mp member
  have finished := quiet activity running
  cases activity with
  | signaling notes =>
    obtain rfl := finished
    rfl
  | merging work => cases finished
  | undoing idxList pIdx numChild => rfl

section Outcome

variable {pIdx idx : Nat} (inv : s.Inv) (statuses : s.Statuses)

include inv

theorem merged_of_below {child : Nat} (grouped : s.Grouped pIdx)
    (member : child ∈ s.history.members pIdx) (below : s.Below child idx) :
    s.history.phase child = .merged := by
  have published := inv.published pIdx grouped child member
  cases phase : s.history.phase child with
  | plain =>
    have none := (inv.plain child phase).1
    cases below with
    | leaf inner _ => simp [none] at inner
    | under inner _ => simp [none] at inner
  | merging => exact absurd (.inl phase) published.2
  | merged => rfl
  | failed => exact absurd (.inr phase) published.2

include statuses

theorem given_of_complete (merged : s.history.phase pIdx = .merged) (complete : s.Complete pIdx)
    (below : s.Below pIdx idx) : s.history.given idx ≠ none := by
  induction below with
  | @leaf pIdx idx member plain =>
    have ended := ((inv.accounted merged).signaled.mp complete idx member).1
    have created := (inv.published pIdx (.inr merged) idx member).1
    rw [statuses.given idx created plain, if_neg ended.2]
    exact Option.some_ne_none _
  | @under pIdx child idx member below ih =>
    exact ih (merged_of_below inv (.inr merged) member below)
      ((inv.accounted merged).signaled.mp complete child member).1

theorem complete_of_given (quiet : s.Quiet) {rank : Nat → Nat}
    (ranked : ∀ pIdx, s.Grouped pIdx → ∀ idx ∈ s.history.members pIdx, rank idx < rank pIdx)
    (merged : s.history.phase pIdx = .merged)
    (all : ∀ idx, s.Below pIdx idx → s.history.given idx ≠ none) : s.Complete pIdx := by
  generalize bound : rank pIdx = n
  induction n using Nat.strongRecOn generalizing pIdx with
  | ind n ih =>
    refine (inv.accounted merged).signaled.mpr fun child member =>
      ⟨?_, inFlight_of_quiet quiet pIdx child⟩
    have published := inv.published pIdx (.inr merged) child member
    cases phase : s.history.phase child with
    | plain =>
      have given := all child (.leaf member phase)
      rw [statuses.given child published.1 phase] at given
      refine ⟨inv.leaf child (by simp [phase]), fun active => ?_⟩
      rw [if_pos active] at given
      exact given rfl
    | merged =>
      exact ih (rank child) (bound ▸ ranked pIdx (.inr merged) child member) phase
        (fun idx below => all idx (.under member below)) rfl
    | merging => exact absurd (.inl phase) published.2
    | failed => exact absurd (.inr phase) published.2

theorem error_of_below (quiet : s.Quiet) (merged : s.history.phase pIdx = .merged)
    (complete : s.Complete pIdx) (below : s.Below pIdx idx) {status : Nat}
    (given : s.history.given idx = some status) (error : isError status = true) :
    isError (s.table pIdx).status = true := by
  have heard : ∀ {pIdx child}, s.history.phase pIdx = .merged → s.Complete pIdx →
      child ∈ s.history.members pIdx → child ∈ s.history.notified pIdx := by
    intro pIdx child merged complete member
    have ended := ((inv.accounted merged).signaled.mp complete child member).1
    have once := (inv.accounted merged).once child
    rw [inFlight_of_quiet quiet, if_pos ended] at once
    have merges := List.count_pos_iff.mpr member
    exact List.count_pos_iff.mp (by omega)
  induction below with
  | @leaf pIdx idx member plain =>
    refine (statuses.merged pIdx merged).errors idx (heard merged complete member) ?_
    have created := (inv.published pIdx (.inr merged) idx member).1
    rw [statuses.given idx created plain] at given
    split at given
    · cases given
    · exact Option.some.inj given ▸ error
  | @under pIdx child idx member below ih =>
    refine (statuses.merged pIdx merged).errors child (heard merged complete member) ?_
    exact ih (merged_of_below inv (.inr merged) member below)
      ((inv.accounted merged).signaled.mp complete child member).1 given

theorem outcome_of_quiet (deliveries : s.Deliveries) (ranked : s.Ranked) (quiet : s.Quiet)
    (merged : s.history.phase pIdx = .merged) : s.Outcome pIdx := by
  have carries := statuses.merged pIdx merged
  have created := inv.phased pIdx (by simp [merged])
  obtain ⟨rank, ranked⟩ := ranked
  have error : s.Complete pIdx → (isError (s.table pIdx).status ↔ ∃ idx, s.Below pIdx idx ∧
      ∃ status, s.history.given idx = some status ∧ isError status) := by
    refine fun complete => ⟨fun wrong => ?_, ?_⟩
    · obtain ⟨idx, below, given⟩ := carries.origin complete.2
      exact ⟨idx, below, _, given, wrong⟩
    · rintro ⟨idx, below, status, given, wrong⟩
      exact error_of_below inv statuses quiet merged complete below given wrong
  refine
    { complete := ⟨fun complete idx => given_of_complete inv statuses merged complete,
        complete_of_given inv statuses quiet ranked merged⟩
      origin := fun complete => carries.origin complete.2
      error := error
      success := fun complete known => ⟨fun success idx below => ?_, fun all => ?_⟩
      delivered := fun id other => ?_ }
  · cases given : s.history.given idx with
    | none => exact absurd given (given_of_complete inv statuses merged complete below)
    | some status =>
      have above := statuses.above idx status given
      have known := known idx below status given
      by_cases wrong : isError status = true
      · have reported := (error complete).mpr ⟨idx, below, status, given, wrong⟩
        rw [success] at reported
        cases reported
      · simp only [isError, Bool.and_eq_true, decide_eq_true_eq, not_and] at wrong
        have low : ¬ SYNX_STATE_SIGNALED_SUCCESS < status := fun beyond => wrong beyond known
        simp only [SYNX_STATE_ACTIVE, SYNX_STATE_SIGNALED_SUCCESS] at low above ⊢
        exact congrArg some (by omega)
  · obtain ⟨idx, below, given⟩ := carries.origin complete.2
    exact Option.some.inj (given.symm.trans (all idx below))
  · split
    · exact deliveries.delivered pIdx created id other ‹_›
    · exact deliveries.silent pIdx created id other ‹_›

end Outcome

structure State.Settles (s : State) : Prop where
  enabled : ¬ s.Quiet → ∃ k, (step s (.advance k)).isSome
  shrinks : ∀ k s', Orderly s (.advance k) → step s (.advance k) = some s' → s'.work < s.work
  outcome : s.Quiet → ∀ pIdx, s.history.phase pIdx = .merged → s.Outcome pIdx

/-- In every run of operations one after another in which no composite passes on a status
other than its own, and no notification is for the target of a failed merge. -/
theorem settles_of_orderly (reached : Reachable (· = State.initial) (StepOf step Orderly) s) :
    s.Settles := by
  have all : s.Inv ∧ s.Statuses ∧ s.Deliveries ∧ s.Ranked ∧ s.Alone := by
    induction reached with
    | start initial =>
      subst initial
      exact ⟨.initial, .initial, .initial, .initial,
        .of_quiet (s := State.initial) (fun _ running => nomatch running) rfl⟩
    | next _ taken ih =>
      obtain ⟨inv, statuses, deliveries, ranked, alone⟩ := ih
      obtain ⟨move, orderly, moved⟩ := taken
      have change := change_of_step orderly.1.1 (alone.timely orderly) moved
      have timely := change.mono fun _ good => good.1
      exact ⟨inv.change timely, statuses.change inv change, deliveries.change inv timely,
        ranked.change inv timely, alone.step orderly.1.2 moved⟩
  obtain ⟨inv, statuses, deliveries, ranked, alone⟩ := all
  refine
    { enabled := fun busy => ?_
      shrinks := fun k s' orderly taken => ?_
      outcome := fun quiet pIdx merged =>
        outcome_of_quiet inv statuses deliveries ranked quiet merged }
  · simp only [State.Quiet, not_forall] at busy
    obtain ⟨activity, running, unfinished⟩ := busy
    obtain ⟨k, here⟩ := List.getElem?_of_mem running
    exact ⟨k, advance_enabled here unfinished⟩
  · exact advance_work inv (fun note first => (alone.timely orderly note first).1) taken

/-- Objects 1 and 2 are merged into 3, 3 into 4, for which core `nsp` waits. -/
abbrev nested : List Move :=
  [.create 1, .create 2, .create 3, .create 4, .merge [1, 2] 3, .advance 0, .advance 0,
    .advance 0, .merge [3] 4, .advance 1, .advance 1, .testWait 4 .nsp]

abbrev cancelledLast : List Move :=
  nested ++ [.update 1 SYNX_STATE_SIGNALED_SUCCESS, .advance 2, .advance 2,
    .update 2 SYNX_STATE_SIGNALED_CANCEL, .advance 3, .advance 3, .advance 3]

theorem cancelledLast_settles :
    ∃ s, Reachable (· = State.initial) (StepOf step Orderly) s ∧
      s.Quiet ∧ s.history.phase 4 = .merged ∧
      s.history.sent = [⟨.nsp, 4, SYNX_STATE_SIGNALED_CANCEL⟩] ∧ s.Settles := by
  have start : Reachable (· = State.initial) (StepOf step Orderly) State.initial := .start rfl
  have reached := play_reachable start
    (show (play step Orderly State.initial cancelledLast).isSome by decide)
  exact ⟨_, reached, by decide, by decide, by decide, settles_of_orderly reached⟩

abbrev cancelledFirst : List Move :=
  nested ++ [.update 1 SYNX_STATE_SIGNALED_CANCEL, .advance 2, .advance 2,
    .update 2 SYNX_STATE_SIGNALED_SUCCESS, .advance 3, .advance 3, .advance 3]

/-- Object 3 ends as cancelled, and 4, with 3 for its only member, as a success. -/
theorem cancelledFirst_not_settled :
    ∃ s, Reachable (· = State.initial) (StepOf step Sequential) s ∧
      s.Quiet ∧ s.history.phase 4 = .merged ∧ s.Complete 4 ∧
      s.Below 4 1 ∧ s.history.given 1 = some SYNX_STATE_SIGNALED_CANCEL ∧
      (s.table 4).status = SYNX_STATE_SIGNALED_SUCCESS ∧
      s.history.sent = [⟨.nsp, 4, SYNX_STATE_SIGNALED_SUCCESS⟩] ∧ ¬ s.Settles := by
  have start : Reachable (· = State.initial) (StepOf step Sequential) State.initial := .start rfl
  have reached := play_reachable start
    (show (play step Sequential State.initial cancelledFirst).isSome by decide)
  have below : State.Below ((play step Sequential State.initial cancelledFirst).get
      (by decide)) 4 1 := .under
    (show 3 ∈ ((play step Sequential State.initial cancelledFirst).get
      (by decide)).history.members 4 by decide) (.leaf (by decide) (by decide))
  refine ⟨_, reached, by decide, by decide, by decide, below, by decide, by decide, by decide,
    fun settles => ?_⟩
  have outcome := settles.outcome (by decide) 4 (by decide)
  exact absurd ((outcome.error (by decide)).mpr ⟨1, below, SYNX_STATE_SIGNALED_CANCEL, by decide, by decide⟩)
    (by decide)

end VendorModules.Synx
