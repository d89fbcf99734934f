import VendorModules.CamSync.Merges

namespace VendorModules.CamSync

open Function Lib SyncTableRow

variable {s : State} {k : Nat} {activity activity' : Activity}

/-! Signals: accepted, taken along the links, and heard by the groups. -/

theorem signalValidate_ok {row : SyncTableRow} {status : Nat} {state : SyncState}
    (valid : row.signalValidate status = .ok state) :
    row.state = .active ∧ row.type = .indv ∧ state.Signaled := by
  unfold signalValidate at valid
  split at valid
  · cases valid
  · split at valid
    · cases valid
    · rename_i single
      split at valid
      · cases valid
      · rename_i active
        split at valid
        · rename_i known
          cases valid
          refine ⟨Decidable.not_not.mp active, ?_, SyncState.ofStatus_signaled known⟩
          cases type : row.type with
          | indv => rfl
          | group => exact absurd type single
        · cases valid

theorem dispatchSignaledCb_forget {eventq : Bool} {syncObj eventCause : Nat}
    {row : SyncTableRow} {status : SyncState} :
    (dispatchSignaledCb eventq syncObj row status eventCause).1.forget = row.forget := by
  unfold dispatchSignaledCb
  split
  · rfl
  · split <;> rfl

def heardRow (row : SyncTableRow) (status : SyncState) : SyncTableRow :=
  { row with
    remaining := (row.remaining + (2 ^ 32 - 1)) % 2 ^ 32
    state := if row.state = .active ∨ row.state = .signaledSuccess then status else row.state }

theorem signalParent_forget {eventq : Bool} {syncObj eventCause : Nat} {row : SyncTableRow}
    {status : SyncState} :
    (signalParent eventq syncObj row status eventCause).1.forget =
      (heardRow row status).forget := by
  simp only [signalParent, updateParentState]
  cases state : row.state <;> simp only [heardRow, state]
  case invalid => simp
  all_goals
    split
    · simp [dispatchSignaledCb_forget]
    · simp

namespace State.Inv

variable (inv : s.Inv)

include inv

theorem notified_nil {idx : Nat} (live : s.Live idx) (indv : (s.table idx).type = .indv) :
    s.history.notified (s.history.ident idx) = [] := by
  have counted := inv.counted idx live
  rw [(inv.indv idx live indv).2, List.length_nil] at counted
  exact List.length_eq_zero_iff.mp (by omega)

section Accept

variable {idx eventCause : Nat} {status : SyncState}

theorem accept (live : s.Live idx) (indv : (s.table idx).type = .indv)
    (active : (s.table idx).state = .active) (signals : status.Signaled) :
    ((s.accept idx status).start
      (.signaling idx (s.history.ident idx) status eventCause)).Inv := by
  have pending := inv.unsignaled_of_active live indv active
  have mono : ∀ obj state, s.history.signaled obj = some state →
      update s.history.signaled (s.history.ident idx) (some status) obj = some state :=
    fun obj state signaled => by
      have differs : obj ≠ s.history.ident idx := fun same => by
        rw [same, pending] at signaled
        cases signaled
      rw [update_of_ne differs, signaled]
  have older : ∀ {i}, s.Live i → i ≠ idx → s.history.ident i ≠ s.history.ident idx :=
    fun live' differs same => differs (inv.ident_inj live' live same)
  let row := { s.table idx with state := status }
  have types : ∀ i, (update s.table idx row i).type = (s.table i).type := update_field _ rfl
  have remainings : ∀ i, (update s.table idx row i).remaining = (s.table i).remaining :=
    update_field _ rfl
  have entries : ∀ i, (update s.table idx row i).parentsList = (s.table i).parentsList :=
    update_field _ rfl
  have lives : ∀ {i}, (update s.table idx row i).state ≠ .invalid ↔ s.Live i := by
    intro i
    by_cases same : i = idx
    · rw [same, update_self]
      exact iff_of_true (SyncState.signaled_iff.mp signals).1 live
    · rw [update_of_ne same, State.Live]
  let s' : State := { s with
    table := update s.table idx row
    running := s.running ++ [.signaling idx (s.history.ident idx) status eventCause]
    history := { s.history with
      signaled := update s.history.signaled (s.history.ident idx) (some status) } }
  have links : ∀ group member, s'.links group member = s.links group member :=
    fun group member => links_congr rfl rfl fun _ => by rw [entries]
  have visits : ∀ group member, s'.visits group member = s.visits group member :=
    visits_append (show s'.running = s.running ++ [_] from rfl)
  have kept : s'.Inv := by
    refine
      { zero := fun live' => inv.zero (lives.mp live')
        bit := fun i live' => inv.bit i (lives.mp live')
        placed := fun i live' => inv.placed i (lives.mp live')
        bare := fun i dead => (entries i).trans (inv.bare i (mt lives.mpr dead))
        entries := fun i parent held => inv.entries i parent (entries i ▸ held)
        unborn := fun obj later => ?_
        born := inv.born
        known := fun obj state signaled => ?_
        indv := fun i live' indv' => ?_
        group := fun i live' group' => ?_
        linked := fun i live' member unsignaled => ?_
        tally := fun i live' => ?_
        counted := fun i live' => (congrArg (· + _) (remainings i)).trans
          (inv.counted i (lives.mp live'))
        few := fun i live' => inv.few i (lives.mp live')
        blamed := fun i live' group' ended => ?_
        spared := fun i live' spared member heard => ?_
        settled := fun i live' group' unlocked none => ?_
        pausing := fun i live' signaled held => ?_
        sound := fun activity running => ?_
        targets := ?_ }
    · have differs : obj ≠ s.history.ident idx := fun same => by
        have := (inv.placed idx live).2
        simp only [s'] at later
        omega
      simp only [s', update_of_ne differs]
      exact inv.unborn obj later
    · by_cases same : obj = s.history.ident idx
      · simp only [s', same, update_self] at signaled
        exact Option.some.inj signaled ▸ signals
      · simp only [s', update_of_ne same] at signaled
        exact inv.known obj state signaled
    · by_cases same : i = idx
      · rw [same]
        simp only [s', row, update_self]
        exact ⟨rfl, (inv.indv idx live indv).2⟩
      · simp only [s', update_of_ne same] at indv' ⊢
        rw [update_of_ne (older (lives.mp live') same)]
        exact inv.indv i (lives.mp live') indv'
    · have group'' : (s.table i).type = .group := (types i).symm.trans group'
      have differs : i ≠ idx := fun same => by
        rw [same, indv] at group''
        cases group''
      simp only [s', entries i, update_of_ne (older (lives.mp live') differs)]
      exact inv.group i (lives.mp live') group''
    · have differs : member ≠ s.history.ident idx := fun same => by
        simp [s', same] at unsignaled
      simp only [s', update_of_ne differs] at unsignaled
      exact (links _ member).trans (inv.linked i (lives.mp live') member unsignaled)
    · refine (inv.tally i (lives.mp live')).finish (a := s.history.ident idx)
        (by simp [pending]) (by simp [s']) ?_ fun member differs => ⟨?_, ?_⟩
      · have linked := inv.linked i (lives.mp live') (s.history.ident idx) pending
        simp only [State.flight, links, visits]
        simp [s', pending, linked]
      · simp only [State.flight, links, visits]
        simp only [s', update_of_ne differs]
      · simp only [s', update_of_ne differs]
    · have group'' : (s.table i).type = .group := (types i).symm.trans group'
      have differs : i ≠ idx := fun same => by
        rw [same, indv] at group''
        cases group''
      simp only [s', update_of_ne differs] at ended ⊢
      obtain ⟨member, heard, blame⟩ := inv.blamed i (lives.mp live') group'' ended
      exact ⟨member, heard, mono _ _ blame⟩
    · by_cases same : i = idx
      · rw [same] at heard
        simp only [s', inv.notified_nil live indv] at heard
        cases heard
      · simp only [s', update_of_ne same] at spared
        exact mono _ _ (inv.spared i (lives.mp live') spared member heard)
    · have group'' : (s.table i).type = .group := (types i).symm.trans group'
      have differs : i ≠ idx := fun same => by
        rw [same, indv] at group''
        cases group''
      simp only [s', update_of_ne differs] at none ⊢
      exact inv.settled i (lives.mp live') group'' unlocked none
    · by_cases same : i = idx
      · rw [same]
        exact ⟨status, eventCause, List.mem_append_right _ (List.mem_singleton_self _)⟩
      · simp only [s', update_of_ne (older (lives.mp live') same), entries i] at signaled held
        exact inv.pausing_mono (lives.mp live') signaled held rfl
          fun _ _ _ => List.mem_append_left _
    · rcases List.mem_append.mp running with before | new
      · exact (inv.sound activity before).frame
          (fun i _ => ⟨rfl, lives, types i, rfl, rfl, fun _ => rfl⟩) mono fun _ sound => sound
      · rw [List.mem_singleton.mp new]
        exact update_self ..
    · simp only [s', List.filterMap_append, List.filterMap_cons, Activity.target,
        List.filterMap_nil, List.append_nil]
      exact inv.targets
  refine kept.of_forget ?_
  have same : ∀ refCnt, (fun i => (update s.table idx { row with refCnt := refCnt } i).forget) =
      fun i => (update s.table idx row i).forget := by
    intro refCnt
    funext i
    by_cases here : i = idx
    · rw [here, update_self, update_self]
      rfl
    · rw [update_of_ne here, update_of_ne here]
  simp only [State.forget, State.start, State.accept, State.record, State.setRow, s']
  exact congrArg (fun table => State.mk _ table _ _ _) (same _)

end Accept

section Finish

variable {idx obj eventCause : Nat} {status : SyncState}

theorem takeLinks (here : s.running[k]? = some (.signaling idx obj status eventCause))
    (current : s.Current idx obj) {row : SyncTableRow} (type : row.type = (s.table idx).type)
    (state : row.state = (s.table idx).state)
    (remaining : row.remaining = (s.table idx).remaining) (parents : row.parentsList = []) :
    State.Inv { s with
      table := update s.table idx row
      running := s.running.set k
        (.visiting obj status eventCause (s.table idx).parentsList) } := by
  have signaled : s.history.signaled obj = some status := inv.sound_of_get here
  have types := update_field SyncTableRow.type type
  have states := update_field SyncTableRow.state state
  have remainings := update_field SyncTableRow.remaining remaining
  let s' : State := { s with
    table := update s.table idx row
    running := s.running.set k (.visiting obj status eventCause (s.table idx).parentsList) }
  have lives : ∀ {i}, s'.Live i ↔ s.Live i := fun {i} => by
    simp only [State.Live, s', states i]
  have visits : ∀ group member, s'.visits group member = s.visits group member +
      if obj = member then (s.table idx).parentsList.countP (·.group = group) else 0 :=
    fun group member => visits_set s' here rfl group member
  have unchanged : (s.table idx).parentsList = [] → ∀ i,
      (s'.table i).parentsList = (s.table i).parentsList := fun bare =>
    update_field SyncTableRow.parentsList (parents.trans bare.symm)
  have place : (s.table idx).parentsList ≠ [] →
      s.history.rowOf obj = idx ∧ s.history.ident idx = obj := fun links => by
    have live : s.Live idx := Decidable.by_contra fun dead => links (inv.bare idx dead)
    have ident := current live
    exact ⟨ident ▸ (inv.placed idx live).1, ident⟩
  have links : ∀ group member, member ≠ obj → s'.links group member = s.links group member := by
    intro group member differs
    refine links_congr rfl rfl fun placed => ?_
    by_cases bare : (s.table idx).parentsList = []
    · rw [unchanged bare]
    · have other : s.history.rowOf member ≠ idx := fun same =>
        differs (by rw [← placed, same, (place bare).2])
      simp only [s', update_of_ne other]
  have taken : ∀ group, s'.links group obj +
      (s.table idx).parentsList.countP (·.group = group) = s.links group obj := by
    intro group
    by_cases bare : (s.table idx).parentsList = []
    · rw [bare]
      exact links_congr rfl rfl fun _ => by rw [unchanged bare]
    · obtain ⟨rowOf, ident⟩ := place bare
      simp [State.links, s', parents, rowOf, ident]
  have flights : ∀ group member, s'.flight group member = s.flight group member := by
    intro group member
    by_cases same : member = obj
    · subst same
      have sum := taken group
      simp only [State.flight, visits, if_true]
      simp only [s', signaled, Option.isSome_some, if_true] at sum ⊢
      omega
    · simp only [State.flight, visits, links group member same, if_neg (Ne.symm same)]
      rfl
  refine
    { zero := fun live => inv.zero (lives.mp live)
      bit := fun i live => inv.bit i (lives.mp live)
      placed := fun i live => inv.placed i (lives.mp live)
      bare := fun i dead => ?_
      entries := fun i parent held => ?_
      unborn := inv.unborn
      born := inv.born
      known := inv.known
      indv := fun i live indv => ?_
      group := fun i live group => ?_
      linked := fun i live member pending => ?_
      tally := fun i live => (inv.tally i (lives.mp live)).congr (flights _) fun _ _ => Iff.rfl
      counted := fun i live => (congrArg (· + _) (remainings i)).trans
        (inv.counted i (lives.mp live))
      few := fun i live => inv.few i (lives.mp live)
      blamed := fun i live group => ?_
      spared := fun i live => ?_
      settled := fun i live group unlocked => ?_
      pausing := fun i live signaled' held => ?_
      sound := fun activity running => ?_
      targets := nodup_filterMap_set inv.targets here (.inl rfl) }
  · by_cases same : i = idx
    · rw [same]
      exact (congrArg SyncTableRow.parentsList (update_self ..)).trans parents
    · simp only [update_of_ne same]
      exact inv.bare i (mt lives.mpr dead)
  · by_cases same : i = idx
    · simp [same, parents] at held
    · simp only [update_of_ne same] at held
      exact inv.entries i parent held
  · rw [types i] at indv
    rw [states i]
    exact inv.indv i (lives.mp live) indv
  · rw [types i] at group
    have before := inv.group i (lives.mp live) group
    refine ⟨?_, before.2⟩
    by_cases same : i = idx
    · simp only [same, update_self, parents]
    · simp only [update_of_ne same]
      exact before.1
  · have differs : member ≠ obj := fun same => by
      rw [same, signaled] at pending
      cases pending
    exact (links _ member differs).trans (inv.linked i (lives.mp live) member pending)
  · rw [types i] at group
    rw [states i]
    exact inv.blamed i (lives.mp live) group
  · rw [states i]
    exact inv.spared i (lives.mp live)
  · rw [types i] at group
    rw [states i, remainings i]
    exact inv.settled i (lives.mp live) group unlocked
  · have differs : i ≠ idx := fun same => by
      simp [same, parents] at held
    simp only [update_of_ne differs] at held
    exact inv.pausing_mono (lives.mp live) signaled' held rfl fun _ _ _ running =>
      mem_set_of_ne running here fun same => differs (Activity.signaling.inj same).1
  · have visiting : Activity.Sound s'
        (.visiting obj status eventCause (s.table idx).parentsList) :=
      ⟨signaled, fun parent held => inv.entries idx parent held⟩
    refine forall_mem_set (P := Activity.Sound s') inv.targets here visiting
      (fun other running _ => ?_) activity running
    exact (inv.sound other running).frame
      (fun i _ => ⟨rfl, lives, types i, rfl, rfl, fun _ => rfl⟩) (fun _ _ same => same)
      fun _ sound => sound

theorem finishSignal (here : s.running[k]? = some (.signaling idx obj status eventCause))
    (current : s.Current idx obj) :
    ((s.finishSignal idx status eventCause).1.resume k
      (.visiting obj status eventCause (s.finishSignal idx status eventCause).2)).Inv := by
  have dispatched : (dispatchSignaledCb true idx (s.table idx) status eventCause).1.forget =
    (s.table idx).forget := dispatchSignaledCb_forget
  simp only [State.finishSignal]
  generalize dispatchSignaledCb true idx (s.table idx) status eventCause = out at dispatched ⊢
  obtain ⟨row, deliveries⟩ := out
  obtain ⟨type, state, remaining, parents⟩ := same_of_forget dispatched
  rw [parents]
  have taken := @takeLinks s k inv idx obj eventCause status here current
    { row with parentsList := [] } type state remaining rfl
  exact taken.of_forget rfl

end Finish

section Visit

variable {child eventCause : Nat} {status : SyncState} {parent : SyncParentInfo}
  {parents : List SyncParentInfo}

omit inv in
theorem visits_pos
    (here : s.running[k]? = some (.visiting child status eventCause (parent :: parents))) :
    0 < s.visits parent.group child := by
  have total := visits_set (s.resume k .returned) here rfl parent.group child
  simp only [Activity.visits, if_true, List.countP_cons, decide_true] at total
  omega

theorem remaining_pos
    (here : s.running[k]? = some (.visiting child status eventCause (parent :: parents)))
    (current : s.Current parent.syncId parent.group) (live : s.Live parent.syncId) :
    0 < (s.table parent.syncId).remaining := by
  have visits := visits_pos here
  have flight : 0 < s.flight (s.history.ident parent.syncId) child := by
    rw [current live]
    exact Nat.lt_of_lt_of_le visits (Nat.le_add_right ..)
  have fewer := (inv.tally _ live).length_lt flight
  have counted := inv.counted _ live
  omega

theorem hear
    (here : s.running[k]? = some (.visiting child status eventCause (parent :: parents)))
    (current : s.Current parent.syncId parent.group) {row : SyncTableRow}
    (same : row.forget = (heardRow (s.table parent.syncId) status).forget) :
    State.Inv { s with
      table := update s.table parent.syncId row
      running := s.running.set k (.visiting child status eventCause parents)
      history := { s.history with
        notified := update s.history.notified parent.group
          (s.history.notified parent.group ++ [child]) } } := by
  obtain ⟨type, state, remaining, links⟩ := same_of_forget same
  simp only [heardRow] at type state remaining links
  obtain ⟨signaled, sounds⟩ : s.history.signaled child = some status ∧
      ∀ held ∈ parent :: parents, held.Sound s := inv.sound_of_get here
  obtain ⟨-, older, place⟩ := sounds parent (List.mem_cons_self ..)
  have signals : status.Signaled := inv.known child status signaled
  have types := update_field SyncTableRow.type type
  have entries := update_field SyncTableRow.parentsList links
  have rowLive : row.state ≠ .invalid ↔ s.Live parent.syncId := by
    rw [state]
    split
    · rename_i waits
      refine iff_of_true (SyncState.signaled_iff.mp signals).1 fun invalid => ?_
      rw [invalid] at waits
      rcases waits with waits | waits <;> cases waits
    · exact Iff.rfl
  have lives : ∀ {i}, (update s.table parent.syncId row i).state ≠ .invalid ↔ s.Live i := by
    intro i
    by_cases same : i = parent.syncId
    · rw [same, update_self]
      exact rowLive
    · rw [update_of_ne same, State.Live]
  have group_iff : ∀ {i}, s.Live i → (s.history.ident i = parent.group ↔ i = parent.syncId) :=
    fun {i} live => ⟨fun same => by rw [← place, ← same, (inv.placed i live).1],
      fun same => by subst same; exact current live⟩
  let s' : State := { s with
    table := update s.table parent.syncId row
    running := s.running.set k (.visiting child status eventCause parents)
    history := { s.history with
      notified := update s.history.notified parent.group
        (s.history.notified parent.group ++ [child]) } }
  have linksSame : ∀ group member, s'.links group member = s.links group member :=
    fun group member => links_congr rfl rfl fun _ => by rw [entries]
  have flights : ∀ group member, s.flight group member = s'.flight group member +
      if child = member ∧ parent.group = group then 1 else 0 := by
    intro group member
    have total := visits_set s' here rfl group member
    have reports : s'.history.signaled = s.history.signaled := rfl
    simp only [State.flight, linksSame, reports]
    simp only [Activity.visits, List.countP_cons, decide_eq_true_eq] at total
    by_cases same : child = member
    · subst same
      simp only [if_true, true_and] at total ⊢
      omega
    · simp only [same, if_false, false_and] at total ⊢
      omega
  refine
    { zero := fun live => inv.zero (lives.mp live)
      bit := fun i live => inv.bit i (lives.mp live)
      placed := fun i live => inv.placed i (lives.mp live)
      bare := fun i dead => (entries i).trans (inv.bare i (mt lives.mpr dead))
      entries := fun i held mem => inv.entries i held (entries i ▸ mem)
      unborn := fun obj later => ?_
      born := inv.born
      known := inv.known
      indv := fun i live indv => ?_
      group := fun i live group => ?_
      linked := fun i live member pending => (linksSame _ member).trans
        (inv.linked i (lives.mp live) member pending)
      tally := fun i live => ?_
      counted := fun i live => ?_
      few := fun i live => inv.few i (lives.mp live)
      blamed := fun i live group ended => ?_
      spared := fun i live spared member heard => ?_
      settled := fun i live group unlocked none => ?_
      pausing := fun i live signaled' held => inv.pausing_mono (lives.mp live) signaled'
        (entries i ▸ held) rfl fun _ _ _ running =>
          mem_set_of_ne running here fun same => by cases same
      sound := fun activity running => ?_
      targets := nodup_filterMap_set inv.targets here (.inl rfl) }
  · have differs : obj ≠ parent.group := fun same => by
      simp only at later
      omega
    simp only [update_of_ne differs]
    exact inv.unborn obj later
  · have before := inv.indv i (lives.mp live) ((types i).symm.trans indv)
    have differs : i ≠ parent.syncId := fun same => by
      subst same
      have member := (inv.tally _ (lives.mp live)).mem_of_flight
        (a := child) (by
          rw [current (lives.mp live)]
          exact Nat.lt_of_lt_of_le (visits_pos here) (Nat.le_add_right ..))
      rw [before.2] at member
      cases member
    simp only [update_of_ne differs]
    exact before
  · rw [types i] at group
    rw [entries i]
    exact inv.group i (lives.mp live) group
  · by_cases same : i = parent.syncId
    · have ident := (group_iff (lives.mp live)).mpr same
      have before := inv.tally i (lives.mp live)
      simp only [ident, update_self] at before ⊢
      refine before.report ?_ fun member differs => ?_
      · simpa using flights parent.group child
      · simpa [Ne.symm differs] using (flights parent.group member).symm
    · have differs := mt (group_iff (lives.mp live)).mp same
      simp only [update_of_ne differs]
      refine (inv.tally i (lives.mp live)).congr (fun member => ?_) fun _ _ => Iff.rfl
      simpa [Ne.symm differs] using (flights (s.history.ident i) member).symm
  · have before := inv.counted i (lives.mp live)
    by_cases same : i = parent.syncId
    · have ident := (group_iff (lives.mp live)).mpr same
      have few := inv.few i (lives.mp live)
      subst same
      have positive := inv.remaining_pos here current (lives.mp live)
      simp only [CAM_SYNC_MAX_OBJS] at few
      simp only [ident, update_self, List.length_append, List.length_singleton, remaining] at *
      omega
    · have differs := mt (group_iff (lives.mp live)).mp same
      simp only [update_of_ne differs, update_of_ne same]
      exact before
  · by_cases same : i = parent.syncId
    · have ident := (group_iff (lives.mp live)).mpr same
      subst same
      simp only [update_self] at ended
      simp only [ident, update_self, state] at ended ⊢
      split at ended
      · rw [if_pos ‹_›]
        exact ⟨child, List.mem_append_right _ (List.mem_singleton_self _), signaled⟩
      · rw [if_neg ‹_›]
        obtain ⟨member, heard, blame⟩ := inv.blamed _ (lives.mp live)
          ((types _).symm.trans group) ended
        rw [ident] at heard
        exact ⟨member, List.mem_append_left _ heard, blame⟩
    · have differs := mt (group_iff (lives.mp live)).mp same
      simp only [update_of_ne differs, update_of_ne same] at group ended ⊢
      exact inv.blamed i (lives.mp live) group ended
  · by_cases same : i = parent.syncId
    · have ident := (group_iff (lives.mp live)).mpr same
      subst same
      simp only [ident, update_self, state] at spared heard
      split at spared
      · rename_i waits
        have success : status = .signaledSuccess :=
          spared.resolve_left signals.ne_active
        rcases List.mem_append.mp heard with before | new
        · exact inv.spared _ (lives.mp live) waits member (ident ▸ before)
        · rw [List.mem_singleton.mp new]
          exact success ▸ signaled
      · rename_i waits
        exact absurd spared waits
    · have differs := mt (group_iff (lives.mp live)).mp same
      simp only [update_of_ne differs, update_of_ne same] at spared heard
      exact inv.spared i (lives.mp live) spared member heard
  · by_cases same : i = parent.syncId
    · subst same
      simp only [update_self, state]
      split
      · exact signals.ne_active
      · rename_i waits
        exact fun active => waits (.inl active)
    · simp only [update_of_ne same] at group none ⊢
      exact inv.settled i (lives.mp live) group unlocked none
  · have visiting : Activity.Sound s' (.visiting child status eventCause parents) :=
      ⟨signaled, fun held mem => sounds held (List.mem_cons_of_mem _ mem)⟩
    refine forall_mem_set (P := Activity.Sound s') inv.targets here visiting
      (fun other running _ => ?_) activity running
    exact (inv.sound other running).frame
      (fun i _ => ⟨rfl, lives, types i, rfl, rfl, fun _ => rfl⟩) (fun _ _ same => same)
      fun _ sound => sound

theorem visit (here : s.running[k]? = some (.visiting child status eventCause (parent :: parents)))
    (current : s.Current parent.syncId parent.group) :
    ((s.visit parent child status eventCause).resume k
      (.visiting child status eventCause parents)).Inv := by
  have heard : (signalParent true parent.syncId (s.table parent.syncId) status
    eventCause).1.forget = (heardRow (s.table parent.syncId) status).forget := signalParent_forget
  simp only [State.visit]
  generalize signalParent true parent.syncId (s.table parent.syncId) status eventCause = out
    at heard ⊢
  exact (inv.hear here current heard).of_forget rfl

end Visit

end State.Inv

end VendorModules.CamSync
