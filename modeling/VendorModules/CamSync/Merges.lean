import VendorModules.CamSync.Lifetimes

namespace VendorModules.CamSync

open Function Lib SyncTableRow

variable {s : State}

/-! Merges: a group gets its members one by one. -/

theorem SyncState.Signaled.ne_active {state : SyncState} (signaled : state.Signaled) :
    state ≠ .active :=
  (SyncState.signaled_iff.mp signaled).2

theorem initGroupEnd_same (row : SyncTableRow) :
    row.initGroupEnd.type = row.type ∧ row.initGroupEnd.remaining = row.remaining ∧
      row.initGroupEnd.parentsList = row.parentsList := by
  unfold initGroupEnd
  split
  · exact ⟨rfl, rfl, rfl⟩
  · exact ⟨rfl, rfl, rfl⟩

theorem initGroupEnd_state {row : SyncTableRow} (live : row.state ≠ .invalid) :
    row.initGroupEnd.state = row.state ∧ (row.remaining = 0 → row.state ≠ .active) ∨
      row.initGroupEnd.state = .signaledSuccess ∧ row.remaining = 0 ∧
        (row.state = .active ∨ row.state = .signaledSuccess) := by
  unfold initGroupEnd
  split
  · rename_i waits
    obtain ⟨none, noError, noCancel⟩ := waits
    refine .inr ⟨rfl, none, ?_⟩
    cases state : row.state with
    | invalid => exact absurd state live
    | active => exact .inl rfl
    | signaledSuccess => exact .inr rfl
    | signaledError => exact absurd state noError
    | signaledCancel => exact absurd state noCancel
  · rename_i waits
    exact .inl ⟨rfl, fun none active => waits ⟨none, by simp [active]⟩⟩

namespace State.Inv

variable (inv : s.Inv)

include inv

theorem unsignaled_of_active {idx : Nat} (live : s.Live idx) (indv : (s.table idx).type = .indv)
    (active : (s.table idx).state = .active) :
    s.history.signaled (s.history.ident idx) = none := by
  have state := (inv.indv idx live indv).1
  rw [active] at state
  cases signaled : s.history.signaled (s.history.ident idx) with
  | none => rfl
  | some status =>
    rw [signaled] at state
    exact absurd state.symm (inv.known _ _ signaled).ne_active

theorem signaled_of_ne_active {idx : Nat} (live : s.Live idx)
    (indv : (s.table idx).type = .indv) (ended : (s.table idx).state ≠ .active) :
    s.history.signaled (s.history.ident idx) = some (s.table idx).state := by
  have state := (inv.indv idx live indv).1
  cases signaled : s.history.signaled (s.history.ident idx) with
  | none =>
    rw [signaled] at state
    exact absurd state ended
  | some status =>
    rw [signaled] at state
    exact congrArg some state.symm

variable {idx child : Nat} (live : s.Live idx) (group : (s.table idx).type = .group)
  (locked : s.locked idx = true) (free : ∀ activity ∈ s.running, activity.target ≠ some idx)
  (room : (s.history.members (s.history.ident idx)).length < CAM_SYNC_MAX_OBJS)
  (alive : s.Live child) (indv : (s.table child).type = .indv)

include live group locked free room alive indv

theorem join (active : (s.table child).state = .active) {table : Nat → SyncTableRow}
    (types : ∀ i, (table i).type = (s.table i).type)
    (states : ∀ i, (table i).state = (s.table i).state)
    (parents : ∀ i, (table i).parentsList = if i = child then
      (s.table child).parentsList ++ [⟨idx, s.history.ident idx⟩] else (s.table i).parentsList)
    (remaining : (table idx).remaining = ((s.table idx).remaining + 1) % 2 ^ 32)
    (remainings : ∀ i, i ≠ idx → (table i).remaining = (s.table i).remaining) :
    State.Inv { s with
      table := table
      history := { s.history with
        members := update s.history.members (s.history.ident idx)
          (s.history.members (s.history.ident idx) ++ [s.history.ident child]) } } := by
  have pending := inv.unsignaled_of_active alive indv active
  have place := inv.placed idx live
  have childPlace := inv.placed child alive
  have older : ∀ {i}, s.Live i → i ≠ idx → s.history.ident i ≠ s.history.ident idx :=
    fun live' differs same => differs (inv.ident_inj live' live same)
  have lives : ∀ {i}, (table i).state ≠ .invalid → s.Live i := fun {i} live' => by
    rwa [states i] at live'
  -- one link more, of a member that has not been signaled
  have links : ∀ i, s.Live i → ∀ member,
      State.links { s with table := table } (s.history.ident i) member =
        s.links (s.history.ident i) member +
          if i = idx ∧ member = s.history.ident child then 1 else 0 := by
    intro i live' member
    simp only [State.links, parents]
    by_cases here : s.history.ident (s.history.rowOf member) = member
    · rw [if_pos here, if_pos here]
      by_cases there : s.history.rowOf member = child
      · have same : member = s.history.ident child := by rw [← here, there]
        rw [if_pos there, there, List.countP_append, List.countP_singleton]
        by_cases target : i = idx
        · simp [target, same]
        · simp [target, (older live' target).symm]
      · have differs : member ≠ s.history.ident child := fun same =>
          there (same ▸ childPlace.1)
        rw [if_neg there]
        simp [differs]
    · have differs : member ≠ s.history.ident child := fun same => by
        rw [same, childPlace.1] at here
        exact here rfl
      rw [if_neg here, if_neg here]
      simp [differs]
  have flights : ∀ i, s.Live i → ∀ member,
      State.flight { s with table := table } (s.history.ident i) member =
        s.flight (s.history.ident i) member := by
    intro i live' member
    have sum := links i live' member
    unfold State.flight
    refine congrArg (s.visits (s.history.ident i) member + ·) ?_
    split
    · have differs : member ≠ s.history.ident child := fun same => by
        rename_i signaled
        rw [same, pending] at signaled
        cases signaled
      rwa [if_neg fun both => differs both.2] at sum
    · rfl
  refine
    { zero := fun live' => inv.zero (lives live')
      bit := fun i live' => inv.bit i (lives live')
      placed := fun i live' => inv.placed i (lives live')
      bare := fun i dead => ?_
      entries := fun i parent held => ?_
      unborn := fun obj later => ?_
      born := fun obj member held => ?_
      known := inv.known
      indv := fun i live' indv' => ?_
      group := fun i live' group' => ?_
      linked := fun i live' member unsignaled => ?_
      tally := fun i live' => ?_
      counted := fun i live' => ?_
      few := fun i live' => ?_
      blamed := fun i live' group' ended => ?_
      spared := fun i live' spared => ?_
      settled := fun i live' group' unlocked => ?_
      pausing := fun i live' signaled held => ?_
      sound := fun activity running => ?_
      targets := inv.targets }
  · have dead' : ¬ s.Live i := fun live' => dead (by simpa only [State.Live, states] using live')
    have differs : i ≠ child := fun same => dead' (same ▸ alive)
    exact (parents i).trans ((if_neg differs).trans (inv.bare i dead'))
  · rw [parents] at held
    split at held
    · rcases List.mem_append.mp held with before | new
      · exact inv.entries child parent before
      · rw [List.mem_singleton.mp new]
        exact ⟨Nat.pos_of_ne_zero (inv.ne_zero live), place.2, place.1⟩
    · exact inv.entries i parent held
  · have differs : obj ≠ s.history.ident idx := fun same => by
      have := place.2
      simp only at later
      omega
    simp only [update_of_ne differs]
    exact inv.unborn obj later
  · by_cases same : obj = s.history.ident idx
    · simp only [same, update_self] at held
      rcases List.mem_append.mp held with before | new
      · exact inv.born _ member before
      · exact List.mem_singleton.mp new ▸ childPlace.2
    · simp only [update_of_ne same] at held
      exact inv.born obj member held
  · have differs : i ≠ idx := fun same => by
      rw [same, types idx, group] at indv'
      cases indv'
    simp only [states i, update_of_ne (older (lives live') differs)]
    exact inv.indv i (lives live') (by rw [← types i]; exact indv')
  · rw [types i] at group'
    have differs : i ≠ child := fun same => by
      rw [same, indv] at group'
      cases group'
    simp only [parents i, if_neg differs]
    exact inv.group i (lives live') group'
  · refine (links i (lives live') member).trans ?_
    rw [inv.linked i (lives live') member unsignaled]
    by_cases same : i = idx
    · subst same
      simp only [update_self, List.count_append, List.count_singleton, true_and, beq_iff_eq,
        eq_comm (a := s.history.ident child)]
    · simp only [update_of_ne (older (lives live') same), same, false_and, if_false, Nat.add_zero]
  · have before := (inv.tally i (lives live')).congr (flights i (lives live')) fun _ _ => Iff.rfl
    by_cases same : i = idx
    · subst same
      simp only [update_self]
      exact before.join (by simp [pending])
    · simp only [update_of_ne (older (lives live') same)]
      exact before
  · have before := inv.counted i (lives live')
    by_cases same : i = idx
    · subst same
      simp only [update_self, List.length_append, List.length_singleton, remaining]
      simp only [CAM_SYNC_MAX_OBJS] at room
      omega
    · simp only [update_of_ne (older (lives live') same)]
      exact (congrArg (· + _) (remainings i same)).trans before
  · by_cases same : i = idx
    · subst same
      simp only [update_self, List.length_append, List.length_singleton]
      exact room
    · simp only [update_of_ne (older (lives live') same)]
      exact inv.few i (lives live')
  · rw [types i] at group'
    rw [states i] at ended ⊢
    exact inv.blamed i (lives live') group' ended
  · rw [states i] at spared
    exact inv.spared i (lives live') spared
  · have differs : i ≠ idx := fun same => by
      rw [same] at unlocked
      exact absurd (locked.symm.trans unlocked) (by decide)
    rw [types i] at group'
    rw [states i, remainings i differs]
    exact inv.settled i (lives live') group' unlocked
  · have differs : i ≠ child := fun same => by
      rw [same, pending] at signaled
      cases signaled
    rw [parents i, if_neg differs] at held
    exact inv.pausing i (lives live') signaled held
  · refine (inv.sound activity running).frame (fun i target => ?_) (fun _ _ same => same)
      fun _ sound => sound
    have differs : i ≠ idx := fun same => free activity running (same ▸ target)
    refine ⟨rfl, ?_, types i, rfl, rfl, fun live' => update_of_ne (older live' differs) ..⟩
    simp only [State.Live]
    rw [states i]

theorem joinSignaled (ended : (s.table child).state ≠ .active) {row : SyncTableRow}
    (type : row.type = .group) (remaining : row.remaining = (s.table idx).remaining)
    (parents : row.parentsList = (s.table idx).parentsList)
    (state : row.state = if (s.table child).state = .signaledSuccess then (s.table idx).state
      else (s.table child).state) :
    State.Inv { s with
      table := update s.table idx row
      history := { s.history with
        members := update s.history.members (s.history.ident idx)
          (s.history.members (s.history.ident idx) ++ [s.history.ident child])
        notified := update s.history.notified (s.history.ident idx)
          (s.history.notified (s.history.ident idx) ++ [s.history.ident child]) } } := by
  have signaled := inv.signaled_of_ne_active alive indv ended
  have place := inv.placed idx live
  have older : ∀ {i}, s.Live i → i ≠ idx → s.history.ident i ≠ s.history.ident idx :=
    fun live' differs same => differs (inv.ident_inj live' live same)
  have types := @update_field _ SyncTableRow.type s.table _ _ (type.trans group.symm)
  have remainings := @update_field _ SyncTableRow.remaining s.table _ _ remaining
  have entries := @update_field _ SyncTableRow.parentsList s.table _ _ parents
  have rowLive : row.state ≠ .invalid := by
    rw [state]
    split
    · exact live
    · exact alive
  have lives : ∀ {i}, (update s.table idx row i).state ≠ .invalid ↔ s.Live i := by
    intro i
    by_cases same : i = idx
    · subst same
      rw [update_self]
      exact iff_of_true rowLive live
    · rw [update_of_ne same, State.Live]
  have links : ∀ obj member, State.links { s with table := update s.table idx row } obj member =
      s.links obj member := fun obj member =>
    links_congr rfl rfl fun _ => by rw [entries]
  have flights : ∀ obj member, State.flight { s with table := update s.table idx row } obj member =
      s.flight obj member := fun obj member => flight_congr rfl rfl (links obj member)
  refine
    { zero := fun live' => inv.zero (lives.mp live')
      bit := fun i live' => inv.bit i (lives.mp live')
      placed := fun i live' => inv.placed i (lives.mp live')
      bare := fun i dead => (entries i).trans (inv.bare i (mt lives.mpr dead))
      entries := fun i parent held => inv.entries i parent (entries i ▸ held)
      unborn := fun obj later => ?_
      born := fun obj member held => ?_
      known := inv.known
      indv := fun i live' indv' => ?_
      group := fun i live' group' => ?_
      linked := fun i live' member unsignaled => ?_
      tally := fun i live' => ?_
      counted := fun i live' => ?_
      few := fun i live' => ?_
      blamed := fun i live' group' notActive => ?_
      spared := fun i live' => ?_
      settled := fun i live' group' unlocked => ?_
      pausing := fun i live' signaled held => inv.pausing i (lives.mp live') signaled
        (entries i ▸ held)
      sound := fun activity running => ?_
      targets := inv.targets }
  · have differs : obj ≠ s.history.ident idx := fun same => by
      have := place.2
      simp only at later
      omega
    simp only [update_of_ne differs]
    exact inv.unborn obj later
  · by_cases same : obj = s.history.ident idx
    · simp only [same, update_self] at held
      rcases List.mem_append.mp held with before | new
      · exact inv.born _ member before
      · exact List.mem_singleton.mp new ▸ (inv.placed child alive).2
    · simp only [update_of_ne same] at held
      exact inv.born obj member held
  · have differs : i ≠ idx := fun same => by
      rw [same, types idx, group] at indv'
      cases indv'
    simp only [update_of_ne differs] at indv' ⊢
    simp only [update_of_ne (older (lives.mp live') differs)]
    exact inv.indv i (lives.mp live') indv'
  · rw [types i] at group'
    rw [entries i]
    exact inv.group i (lives.mp live') group'
  · refine (links _ member).trans ?_
    rw [inv.linked i (lives.mp live') member unsignaled]
    by_cases same : i = idx
    · subst same
      have differs : s.history.ident child ≠ member := fun same => by
        rw [← same, signaled] at unsignaled
        cases unsignaled
      simp [differs]
    · simp only [update_of_ne (older (lives.mp live') same)]
  · have before := (inv.tally i (lives.mp live')).congr (flights _) fun _ _ => Iff.rfl
    by_cases same : i = idx
    · subst same
      simp only [update_self]
      exact before.joinEnded (by simp [signaled])
    · simp only [update_of_ne (older (lives.mp live') same)]
      exact before
  · have before := inv.counted i (lives.mp live')
    by_cases same : i = idx
    · subst same
      simp only [update_self, List.length_append, List.length_singleton, remaining]
      omega
    · simp only [update_of_ne (older (lives.mp live') same), remainings i]
      exact before
  · by_cases same : i = idx
    · subst same
      simp only [update_self, List.length_append, List.length_singleton]
      exact room
    · simp only [update_of_ne (older (lives.mp live') same)]
      exact inv.few i (lives.mp live')
  · by_cases same : i = idx
    · subst same
      simp only [update_self] at notActive ⊢
      rw [state] at notActive ⊢
      split at notActive
      · obtain ⟨member, heard, blame⟩ := inv.blamed i live group notActive
        rw [if_pos ‹_›]
        exact ⟨member, List.mem_append_left _ heard, blame⟩
      · rw [if_neg ‹_›]
        exact ⟨_, List.mem_append_right _ (List.mem_singleton_self _), signaled⟩
    · simp only [update_of_ne same] at group' notActive ⊢
      simp only [update_of_ne (older (lives.mp live') same)]
      exact inv.blamed i (lives.mp live') group' notActive
  · by_cases same : i = idx
    · subst same
      simp only [update_self]
      rw [state]
      intro spared member heard
      split at spared
      · rename_i success
        rcases List.mem_append.mp heard with before | new
        · exact inv.spared i live spared member before
        · rw [List.mem_singleton.mp new, signaled, success]
      · rename_i failed
        exact (spared.elim ended failed).elim
    · simp only [update_of_ne same, update_of_ne (older (lives.mp live') same)]
      exact inv.spared i (lives.mp live')
  · have differs : i ≠ idx := fun same => by
      rw [same] at unlocked
      exact absurd (locked.symm.trans unlocked) (by decide)
    simp only [update_of_ne differs] at group' ⊢
    exact inv.settled i (lives.mp live') group' unlocked
  · refine (inv.sound activity running).frame (fun i target => ?_) (fun _ _ same => same)
      fun _ sound => sound
    have differs : i ≠ idx := fun same => free activity running (same ▸ target)
    exact ⟨rfl, lives, types i, rfl, rfl, fun live' => update_of_ne (older live' differs) ..⟩

omit locked room alive indv in
theorem verdict (nonempty : s.history.members (s.history.ident idx) ≠ []) {row : SyncTableRow}
    (type : row.type = .group) (remaining : row.remaining = (s.table idx).remaining)
    (parents : row.parentsList = (s.table idx).parentsList)
    (state : row.state = (s.table idx).state ∧
        ((s.table idx).remaining = 0 → (s.table idx).state ≠ .active) ∨
      row.state = .signaledSuccess ∧ (s.table idx).remaining = 0 ∧
        ((s.table idx).state = .active ∨ (s.table idx).state = .signaledSuccess)) :
    State.Inv { s with
      table := update s.table idx row
      locked := update s.locked idx false } := by
  have types := @update_field _ SyncTableRow.type s.table _ _ (type.trans group.symm)
  have remainings := @update_field _ SyncTableRow.remaining s.table _ _ remaining
  have entries := @update_field _ SyncTableRow.parentsList s.table _ _ parents
  have rowLive : row.state ≠ .invalid := by
    rcases state with ⟨same, -⟩ | ⟨success, -⟩
    · exact same ▸ live
    · simp [success]
  have lives : ∀ {i}, (update s.table idx row i).state ≠ .invalid ↔ s.Live i := by
    intro i
    by_cases same : i = idx
    · subst same
      rw [update_self]
      exact iff_of_true rowLive live
    · rw [update_of_ne same, State.Live]
  have flights : ∀ obj member, State.flight { s with table := update s.table idx row } obj member =
      s.flight obj member := fun obj member =>
    flight_congr rfl rfl (links_congr rfl rfl fun _ => by rw [entries])
  refine
    { zero := fun live' => inv.zero (lives.mp live')
      bit := fun i live' => inv.bit i (lives.mp live')
      placed := fun i live' => inv.placed i (lives.mp live')
      bare := fun i dead => (entries i).trans (inv.bare i (mt lives.mpr dead))
      entries := fun i parent held => inv.entries i parent (entries i ▸ held)
      unborn := inv.unborn
      born := inv.born
      known := inv.known
      indv := fun i live' indv' => ?_
      group := fun i live' group' => ?_
      linked := fun i live' member pending => ?_
      tally := fun i live' => (inv.tally i (lives.mp live')).congr (flights _) fun _ _ => Iff.rfl
      counted := fun i live' => by
        rw [remainings i]
        exact inv.counted i (lives.mp live')
      few := fun i live' => inv.few i (lives.mp live')
      blamed := fun i live' group' ended => ?_
      spared := fun i live' => ?_
      settled := fun i live' group' unlocked none => ?_
      pausing := fun i live' signaled held => inv.pausing i (lives.mp live') signaled
        (entries i ▸ held)
      sound := fun activity running => ?_
      targets := inv.targets }
  · have differs : i ≠ idx := fun same => by
      rw [same, types idx, group] at indv'
      cases indv'
    simp only [update_of_ne differs] at indv' ⊢
    exact inv.indv i (lives.mp live') indv'
  · rw [types i] at group'
    rw [entries i]
    exact inv.group i (lives.mp live') group'
  · have links : State.links { s with table := update s.table idx row } (s.history.ident i) member =
        s.links (s.history.ident i) member := links_congr rfl rfl fun _ => by rw [entries]
    exact links.trans (inv.linked i (lives.mp live') member pending)
  · by_cases same : i = idx
    · subst same
      simp only [update_self] at ended ⊢
      rcases state with ⟨kept, -⟩ | ⟨success, none, spared⟩
      · rw [kept] at ended ⊢
        exact inv.blamed i live group ended
      · have counted := inv.counted i live
        have positive := List.length_pos_of_ne_nil nonempty
        obtain ⟨member, heard⟩ := List.exists_mem_of_length_pos
          (show 0 < (s.history.notified (s.history.ident i)).length by omega)
        exact ⟨member, heard, success ▸ inv.spared i live spared member heard⟩
    · simp only [update_of_ne same] at group' ended ⊢
      exact inv.blamed i (lives.mp live') group' ended
  · by_cases same : i = idx
    · subst same
      simp only [update_self]
      intro spared
      rcases state with ⟨kept, -⟩ | ⟨-, -, before⟩
      · exact inv.spared i live (kept ▸ spared)
      · exact inv.spared i live before
    · simp only [update_of_ne same]
      exact inv.spared i (lives.mp live')
  · by_cases same : i = idx
    · subst same
      simp only [update_self] at none ⊢
      rcases state with ⟨kept, settled⟩ | ⟨success, -⟩
      · rw [kept]
        exact settled (remaining ▸ none)
      · simp [success]
    · simp only [update_of_ne same] at group' unlocked none ⊢
      exact inv.settled i (lives.mp live') group' unlocked none
  · refine (inv.sound activity running).frame (fun i target => ?_) (fun _ _ same => same)
      fun _ sound => sound
    have differs : i ≠ idx := fun same => free activity running (same ▸ target)
    exact ⟨rfl, lives, types i, update_of_ne differs .., rfl, fun _ => rfl⟩

end State.Inv

/-! ## The sections of a merge -/

variable {k idx child : Nat} {linked rest : List Nat} {alloc : LinkAlloc}

theorem link_of_active (indv : (s.table child).type = .indv)
    (active : (s.table child).state = .active) :
    s.link idx linked child rest ⟨true, true⟩ =
      ({ s with
          table := update
            (update s.table child { s.table child with
              parentsList := (s.table child).parentsList ++ [⟨idx, s.history.ident idx⟩] })
            idx { s.table idx with
              remaining := ((s.table idx).remaining + 1) % 2 ^ 32
              childrenList := (s.table idx).childrenList ++ [child] }
          history := { s.history with
            members := update s.history.members (s.history.ident idx)
              (s.history.members (s.history.ident idx) ++ [s.history.ident child]) } },
        .merging idx (linked ++ [child]) rest) := by
  simp [State.link, linkChild, indv, active]

theorem link_of_signaled (indv : (s.table child).type = .indv)
    (signaled : (s.table child).state.Signaled) :
    s.link idx linked child rest alloc =
      ({ s with
          table := update s.table idx { s.table idx with
            state := if (s.table child).state = .signaledSuccess then (s.table idx).state
              else (s.table child).state }
          history := { s.history with
            members := update s.history.members (s.history.ident idx)
              (s.history.members (s.history.ident idx) ++ [s.history.ident child])
            notified := update s.history.notified (s.history.ident idx)
              (s.history.notified (s.history.ident idx) ++ [s.history.ident child]) } },
        .merging idx (linked ++ [child]) rest) := by
  rcases signaled with state | state | state <;>
    simp [State.link, linkChild, indv, state]

theorem link_resume {activity : Activity} :
    (s.resume k activity).link idx linked child rest alloc =
      ((s.link idx linked child rest alloc).1.resume k activity,
        (s.link idx linked child rest alloc).2) := by
  simp only [State.link, State.resume]
  split <;> rfl

theorem link_running : (s.link idx linked child rest alloc).1.running = s.running := by
  simp only [State.link]
  split <;> rfl

theorem link_snd (mergeable : s.Mergeable child alloc) :
    (s.link idx linked child rest alloc).2 = .merging idx (linked ++ [child]) rest := by
  obtain ⟨indv, alive, memory⟩ := mergeable
  by_cases active : (s.table child).state = .active
  · rw [memory active, link_of_active indv active]
  · rw [link_of_signaled indv (SyncState.signaled_iff.mpr ⟨alive, active⟩)]

theorem State.Merges.link (merges : s.Merges idx linked (child :: rest))
    (mergeable : s.Mergeable child alloc) :
    (s.link idx linked child rest alloc).1.Merges idx (linked ++ [child]) rest := by
  obtain ⟨indv, alive, memory⟩ := mergeable
  have bound : (linked ++ [child]).length + rest.length ≤ CAM_SYNC_MAX_OBJS := by
    have bound := merges.bound
    rw [List.length_cons] at bound
    rw [List.length_append, List.length_singleton]
    omega
  have members : (update s.history.members (s.history.ident idx)
      (s.history.members (s.history.ident idx) ++ [s.history.ident child])
      (s.history.ident idx)).length = (linked ++ [child]).length := by
    rw [update_self, List.length_append, List.length_append, merges.members]
    rfl
  by_cases active : (s.table child).state = .active
  · rw [memory active, link_of_active indv active]
    exact
      { live := by
          simp only [State.Live, update_self]
          exact merges.live
        group := by simpa only [update_self] using merges.group
        locked := merges.locked
        members := members
        bound := bound
        nonempty := by simp }
  · rw [link_of_signaled indv (SyncState.signaled_iff.mpr ⟨alive, active⟩)]
    exact
      { live := by
          simp only [State.Live, update_self]
          split
          · exact merges.live
          · exact alive
        group := by simpa only [update_self] using merges.group
        locked := merges.locked
        members := members
        bound := bound
        nonempty := by simp }

namespace State.Inv

variable (inv : s.Inv)

include inv

theorem linked_member (merges : s.Merges idx linked (child :: rest))
    (free : ∀ activity ∈ s.running, activity.target ≠ some idx)
    (mergeable : s.Mergeable child alloc) : (s.link idx linked child rest alloc).1.Inv := by
  obtain ⟨indv, alive, memory⟩ := mergeable
  have room : (s.history.members (s.history.ident idx)).length < CAM_SYNC_MAX_OBJS := by
    have bound := merges.bound
    rw [List.length_cons] at bound
    rw [merges.members]
    omega
  have apart : idx ≠ child := fun same => by
    have group := merges.group
    rw [same, indv] at group
    cases group
  by_cases active : (s.table child).state = .active
  · rw [memory active, link_of_active indv active]
    refine inv.join merges.live merges.group merges.locked free room alive indv active
      (update_update_field SyncTableRow.type rfl rfl)
      (update_update_field SyncTableRow.state rfl rfl) (fun i => ?_)
      (by rw [update_self]) fun i differs => ?_
    · by_cases here : i = idx
      · rw [here, update_self, if_neg apart]
      · rw [update_of_ne here]
        split
        · rename_i same
          rw [same, update_self]
        · rename_i other
          rw [update_of_ne other]
    · rw [update_of_ne differs]
      refine update_field SyncTableRow.remaining ?_ i
      rfl
  · rw [link_of_signaled indv (SyncState.signaled_iff.mpr ⟨alive, active⟩)]
    exact inv.joinSignaled merges.live merges.group merges.locked free room alive indv active
      merges.group rfl rfl rfl

theorem link (here : s.running[k]? = some (.merging idx linked (child :: rest)))
    (mergeable : s.Mergeable child alloc) :
    ((s.link idx linked child rest alloc).1.resume k
      (s.link idx linked child rest alloc).2).Inv := by
  have merges : s.Merges idx linked (child :: rest) := inv.sound_of_get here
  have merges' : (s.resume k .returned).Merges idx linked (child :: rest) :=
    { merges with }
  have free := inv.apart here rfl
  have joined := (inv.checkOut here trivial).linked_member merges' free
    (show State.Mergeable _ child alloc from mergeable)
  have more := merges'.link (show State.Mergeable _ child alloc from mergeable)
  rw [link_resume] at joined more
  have again : ((s.link idx linked child rest alloc).1.resume k .returned).running[k]? =
      some .returned := by
    rw [State.resume, link_running]
    exact get_resume here
  have claimed := joined.claim again trivial
    (show (Activity.merging idx (linked ++ [child]) rest).Plain from trivial) more rfl (by
      simp only [State.resume, link_running]
      exact free)
  rwa [resume_resume, ← link_snd mergeable] at claimed

theorem finishGroup (here : s.running[k]? = some (.merging idx linked [])) :
    ((s.finishGroup idx).resume k .returned).Inv := by
  have merges : s.Merges idx linked [] := inv.sound_of_get here
  have nonempty : s.history.members (s.history.ident idx) ≠ [] := fun none => by
    have length := merges.members
    rw [none] at length
    exact merges.nonempty (by simpa using (List.length_eq_zero_iff.mp length.symm))
  have kept := initGroupEnd_same (s.table idx)
  have ended := (inv.checkOut here trivial).verdict merges.live merges.group
    (inv.apart here rfl) nonempty (kept.1.trans merges.group) kept.2.1 kept.2.2
    (initGroupEnd_state merges.live)
  exact ended.of_forget rfl

end State.Inv

end VendorModules.CamSync
