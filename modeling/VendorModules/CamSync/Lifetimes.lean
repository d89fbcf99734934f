import VendorModules.CamSync.Calls

namespace VendorModules.CamSync

open Function Lib SyncTableRow

variable {s s' : State}

/-! Rows come into use and go out of it. -/

/-! ## Links -/

theorem links_congr {group member : Nat} (ident : s'.history.ident = s.history.ident)
    (rowOf : s'.history.rowOf = s.history.rowOf)
    (counts : s.history.ident (s.history.rowOf member) = member →
      (s'.table (s.history.rowOf member)).parentsList.countP (·.group = group) =
        (s.table (s.history.rowOf member)).parentsList.countP (·.group = group)) :
    s'.links group member = s.links group member := by
  unfold State.links
  rw [ident, rowOf]
  split
  · exact counts ‹_›
  · rfl

theorem flight_congr {group member : Nat} (running : s'.running = s.running)
    (signaled : s'.history.signaled = s.history.signaled)
    (links : s'.links group member = s.links group member) :
    s'.flight group member = s.flight group member := by
  unfold State.flight
  rw [visits_congr running, signaled, links]

namespace State.Inv

variable (inv : s.Inv)

include inv

theorem countP_unborn {group : Nat} (unborn : s.history.next ≤ group) (idx : Nat) :
    (s.table idx).parentsList.countP (·.group = group) = 0 := by
  refine List.countP_eq_zero.mpr fun parent held => ?_
  have older := (inv.entries idx parent held).2.1
  simp only [decide_eq_true_eq]
  omega

theorem links_unborn {group : Nat} (unborn : s.history.next ≤ group) (member : Nat) :
    s.links group member = 0 := by
  unfold State.links
  split
  · exact inv.countP_unborn unborn _
  · rfl

theorem visits_unborn {group : Nat} (unborn : s.history.next ≤ group) (member : Nat) :
    s.visits group member = 0 := by
  refine List.sum_eq_zero fun n held => ?_
  obtain ⟨activity, running, rfl⟩ := List.mem_map.mp held
  cases activity with
  | visiting child status eventCause parents =>
    simp only [Activity.visits]
    split
    · refine List.countP_eq_zero.mpr fun parent held => ?_
      have older := ((inv.sound _ running).2 parent held).2.1
      simp only [decide_eq_true_eq]
      omega
    · rfl
  | _ => rfl

theorem links_of_bare {member : Nat} (dead : ¬ s.Live (s.history.rowOf member))
    (group : Nat) : s.links group member = 0 := by
  unfold State.links
  rw [inv.bare _ dead]
  simp

/-! ## A new object -/

section Init

variable {idx : Nat} {type : SyncType}

theorem links_initRow (reserved : s.Reserved idx) (group member : Nat) :
    (s.initRow idx type).links group member = s.links group member := by
  by_cases new : member = s.history.next
  · subst new
    have here : (s.initRow idx type).links group s.history.next = 0 := by
      simp [State.links, State.initRow, SyncTableRow.initRow]
    rw [here]
    by_cases live : s.Live (s.history.rowOf s.history.next)
    · have older := (inv.placed _ live).2
      exact (if_neg (by omega)).symm
    · exact (inv.links_of_bare live group).symm
  · simp only [State.links, State.initRow, update_of_ne new]
    by_cases same : s.history.rowOf member = idx
    · have bare := inv.bare idx reserved.2.2
      rw [same, update_self, update_self, if_neg (Ne.symm new), bare]
      simp
    · rw [update_of_ne same, update_of_ne same]

theorem initRow (reserved : s.Reserved idx) (locked : type = .group → s.locked idx = true)
    (free : ∀ activity ∈ s.running, activity.target ≠ some idx) :
    (s.initRow idx type).Inv := by
  have older : ∀ {i}, (s.initRow idx type).Live i → i ≠ idx → s.Live i :=
    fun live differs => by
      simpa only [State.Live, State.initRow, update_of_ne differs] using live
  have apart : ∀ {i}, s.Live i → i ≠ idx := fun live same => reserved.2.2 (same ▸ live)
  have place : ∀ {obj}, obj < s.history.next →
      update s.history.rowOf s.history.next idx obj = s.history.rowOf obj := fun old =>
    update_of_ne (Nat.ne_of_lt old) ..
  have entry : ∀ parent : SyncParentInfo, parent.Sound s →
      parent.Sound (s.initRow idx type) := fun parent sound =>
    ⟨sound.1, Nat.lt_succ_of_lt sound.2.1, (place sound.2.1).trans sound.2.2⟩
  have flights : ∀ group member,
      (s.initRow idx type).flight group member = s.flight group member := fun group member =>
    flight_congr rfl rfl (inv.links_initRow reserved group member)
  have unborn := inv.unborn s.history.next (Nat.le_refl _)
  refine
    { zero := fun live => inv.zero (older live (Nat.ne_of_lt reserved.1))
      bit := fun i live => ?_
      placed := fun i live => ?_
      bare := fun i dead => ?_
      entries := fun i parent held => ?_
      unborn := fun obj later => inv.unborn obj (Nat.le_of_succ_le later)
      born := fun group member held => Nat.lt_succ_of_lt (inv.born group member held)
      known := inv.known
      indv := fun i live => ?_
      group := fun i live => ?_
      linked := fun i live member pending => ?_
      tally := fun i live => ?_
      counted := fun i live => ?_
      few := fun i live => ?_
      blamed := fun i live => ?_
      spared := fun i live => ?_
      settled := fun i live => ?_
      pausing := fun i live => ?_
      sound := fun activity running => ?_
      targets := inv.targets }
  · by_cases same : i = idx
    · exact same ▸ reserved.2.1
    · exact inv.bit i (older live same)
  · by_cases same : i = idx
    · subst same
      simp [State.initRow]
    · have before := inv.placed i (older live same)
      simp only [State.initRow, update_of_ne same, place before.2]
      exact ⟨before.1, Nat.lt_succ_of_lt before.2⟩
  · by_cases same : i = idx
    · subst same
      simp [State.initRow, SyncTableRow.initRow]
    · simp only [State.Live, State.initRow, update_of_ne same] at dead ⊢
      exact inv.bare i dead
  · by_cases same : i = idx
    · subst same
      simp [State.initRow, SyncTableRow.initRow] at held
    · simp only [State.initRow, update_of_ne same] at held
      exact entry parent (inv.entries i parent held)
  · by_cases same : i = idx
    · subst same
      simp [State.initRow, SyncTableRow.initRow, unborn]
    · simpa only [State.initRow, update_of_ne same] using inv.indv i (older live same)
  · by_cases same : i = idx
    · subst same
      simp [State.initRow, SyncTableRow.initRow, unborn]
    · simpa only [State.initRow, update_of_ne same] using inv.group i (older live same)
  · rw [inv.links_initRow reserved]
    by_cases same : i = idx
    · subst same
      simp [State.initRow, unborn, inv.links_unborn]
    · simp only [State.initRow, update_of_ne same]
      exact inv.linked i (older live same) member pending
  · by_cases same : i = idx
    · subst same
      simp only [State.initRow, update_self, unborn]
      refine Tally.empty fun member => ?_
      refine (flights s.history.next member).trans ?_
      simp [State.flight, inv.visits_unborn, inv.links_unborn]
    · simp only [State.initRow, update_of_ne same]
      exact (inv.tally i (older live same)).congr (fun member => flights _ member)
        fun _ _ => Iff.rfl
  · by_cases same : i = idx
    · subst same
      simp [State.initRow, SyncTableRow.initRow, unborn]
    · simpa only [State.initRow, update_of_ne same] using inv.counted i (older live same)
  · by_cases same : i = idx
    · subst same
      simp [State.initRow, unborn]
    · simpa only [State.initRow, update_of_ne same] using inv.few i (older live same)
  · by_cases same : i = idx
    · subst same
      simp [State.initRow, SyncTableRow.initRow]
    · simpa only [State.initRow, update_of_ne same] using inv.blamed i (older live same)
  · by_cases same : i = idx
    · subst same
      simp [State.initRow, SyncTableRow.initRow, unborn]
    · simpa only [State.initRow, update_of_ne same] using inv.spared i (older live same)
  · by_cases same : i = idx
    · subst same
      intro group unlocked
      have isGroup : type = .group := by
        simpa [State.initRow, SyncTableRow.initRow] using group
      rw [show (s.initRow i type).locked = s.locked from rfl, locked isGroup] at unlocked
      cases unlocked
    · simpa only [State.initRow, update_of_ne same] using inv.settled i (older live same)
  · by_cases same : i = idx
    · subst same
      simp [State.initRow, SyncTableRow.initRow]
    · simpa only [State.initRow, update_of_ne same, State.Pausing] using
        inv.pausing i (older live same)
  · refine (inv.sound activity running).frame (fun i target => ?_) (fun _ _ same => same) entry
    have differs : i ≠ idx := fun same => free activity running (same ▸ target)
    refine ⟨rfl, ?_, ?_, rfl, update_of_ne differs .., fun _ => rfl⟩
    · simp only [State.Live, State.initRow, update_of_ne differs]
    · simp only [State.initRow, update_of_ne differs]

end Init

/-! ## The end of an object -/

section Destroy

variable {idx : Nat} {row : SyncTableRow}

theorem relink (type : row.type = (s.table idx).type) (state : row.state = (s.table idx).state)
    (remaining : row.remaining = (s.table idx).remaining)
    (fewer : row.parentsList.Sublist (s.table idx).parentsList)
    (counts : ∀ group, s.Lives group →
      row.parentsList.countP (·.group = group) =
        (s.table idx).parentsList.countP (·.group = group)) :
    (s.setRow idx row).Inv := by
  have types := update_field SyncTableRow.type type
  have states := update_field SyncTableRow.state state
  have remainings := update_field SyncTableRow.remaining remaining
  have fewers : ∀ i, (update s.table idx row i).parentsList.Sublist (s.table i).parentsList :=
    fun i => by
      by_cases same : i = idx
      · rw [same, update_self]
        exact fewer
      · rw [update_of_ne same]
  have lives : ∀ i, (s.setRow idx row).Live i ↔ s.Live i := fun i => by
    simp only [State.Live, State.setRow, states i]
  have links : ∀ i, s.Live i → ∀ member,
      (s.setRow idx row).links (s.history.ident i) member =
        s.links (s.history.ident i) member := by
    intro i live member
    refine links_congr rfl rfl fun _ => ?_
    simp only [State.setRow]
    by_cases same : s.history.rowOf member = idx
    · rw [same, update_self]
      exact counts _ ((State.lives_iff (inv.placed i live).1).mpr ⟨live, rfl⟩)
    · rw [update_of_ne same]
  refine
    { zero := fun live => inv.zero ((lives 0).mp live)
      bit := fun i live => inv.bit i ((lives i).mp live)
      placed := fun i live => inv.placed i ((lives i).mp live)
      bare := fun i dead => ?_
      entries := fun i parent held => inv.entries i parent ((fewers i).subset held)
      unborn := inv.unborn
      born := inv.born
      known := inv.known
      indv := fun i live => ?_
      group := fun i live group => ?_
      linked := fun i live member pending => ?_
      tally := fun i live => ?_
      counted := fun i live => ?_
      few := fun i live => inv.few i ((lives i).mp live)
      blamed := fun i live => ?_
      spared := fun i live => ?_
      settled := fun i live => ?_
      pausing := fun i live signaled held => ?_
      sound := fun activity running => ?_
      targets := inv.targets }
  · have none := (fewers i).subset
    rw [inv.bare i (mt (lives i).mpr dead)] at none
    exact List.subset_nil.mp none
  · simpa only [State.setRow, types i, states i] using inv.indv i ((lives i).mp live)
  · have before := inv.group i ((lives i).mp live) ((types i).symm.trans group)
    have none := (fewers i).subset
    rw [before.1] at none
    exact ⟨List.subset_nil.mp none, before.2⟩
  · exact (links i ((lives i).mp live) member).trans
      (inv.linked i ((lives i).mp live) member pending)
  · exact (inv.tally i ((lives i).mp live)).congr
      (fun member => flight_congr rfl rfl (links i ((lives i).mp live) member))
      fun _ _ => Iff.rfl
  · simpa only [State.setRow, remainings i] using inv.counted i ((lives i).mp live)
  · simpa only [State.setRow, types i, states i] using inv.blamed i ((lives i).mp live)
  · simpa only [State.setRow, states i] using inv.spared i ((lives i).mp live)
  · simpa only [State.setRow, types i, states i, remainings i] using
      inv.settled i ((lives i).mp live)
  · refine inv.pausing i ((lives i).mp live) signaled fun none => held ?_
    have fewer := (fewers i).subset
    rw [none] at fewer
    exact List.subset_nil.mp fewer
  · exact (inv.sound activity running).frame
      (fun i _ => ⟨rfl, lives i, types i, rfl, rfl, fun _ => rfl⟩) (fun _ _ same => same)
      fun _ sound => sound

theorem cleanupParentsList {child : Nat} (dead : ¬ s.Live idx) :
    (s.setRow child ((s.table child).cleanupParentsList idx)).Inv := by
  refine inv.relink rfl rfl rfl (List.eraseP_sublist ..) fun group lives => ?_
  have other : ∀ parent ∈ (s.table child).parentsList, parent.group = group →
      parent.syncId ≠ idx := fun parent held same place => by
    have row := (inv.entries child parent held).2.2
    rw [same, place] at row
    exact dead ((State.lives_iff row).mp lives).1
  simp only [SyncTableRow.cleanupParentsList]
  generalize (s.table child).parentsList = parents at other
  induction parents with
  | nil => rfl
  | cons parent parents ih =>
    have rest := ih fun parent held => other parent (List.mem_cons_of_mem _ held)
    by_cases found : parent.syncId = idx
    · have differs : parent.group ≠ group := fun same =>
        other parent (List.mem_cons_self ..) same found
      simp [found, differs]
    · rw [List.eraseP_cons_of_neg (by simpa using found), List.countP_cons, List.countP_cons,
        rest]

theorem vanish (state : row.state = .invalid) (bare : row.parentsList = [])
    (free : ∀ activity ∈ s.running, activity.target ≠ some idx)
    (unlinked : ∀ parent ∈ (s.table idx).parentsList, ¬ s.Lives parent.group) :
    (s.setRow idx row).Inv := by
  have lives : ∀ {i}, (s.setRow idx row).Live i → i ≠ idx ∧ s.Live i := by
    intro i live
    by_cases same : i = idx
    · subst same
      exact absurd state (by simpa [State.Live, State.setRow] using live)
    · exact ⟨same, by simpa only [State.Live, State.setRow, update_of_ne same] using live⟩
  have rows : ∀ {i}, i ≠ idx → (s.setRow idx row).table i = s.table i := fun differs =>
    update_of_ne differs ..
  have links : ∀ i, s.Live i → ∀ member,
      (s.setRow idx row).links (s.history.ident i) member =
        s.links (s.history.ident i) member := by
    intro i live member
    refine links_congr rfl rfl fun _ => ?_
    simp only [State.setRow]
    by_cases same : s.history.rowOf member = idx
    · rw [same, update_self, bare, List.countP_nil]
      refine (List.countP_eq_zero.mpr fun parent held => ?_).symm
      simp only [decide_eq_true_eq]
      intro same
      exact unlinked parent held
        (same ▸ (State.lives_iff (inv.placed i live).1).mpr ⟨live, rfl⟩)
    · rw [update_of_ne same]
  refine
    { zero := fun live => inv.zero (lives live).2
      bit := fun i live => inv.bit i (lives live).2
      placed := fun i live => inv.placed i (lives live).2
      bare := fun i dead => ?_
      entries := fun i parent held => ?_
      unborn := inv.unborn
      born := inv.born
      known := inv.known
      indv := fun i live => ?_
      group := fun i live => ?_
      linked := fun i live member pending => ?_
      tally := fun i live => ?_
      counted := fun i live => ?_
      few := fun i live => inv.few i (lives live).2
      blamed := fun i live => ?_
      spared := fun i live => ?_
      settled := fun i live => ?_
      pausing := fun i live => ?_
      sound := fun activity running => ?_
      targets := inv.targets }
  · by_cases same : i = idx
    · rw [same]
      exact (congrArg parentsList (update_self ..)).trans bare
    · simp only [State.Live, rows same] at dead ⊢
      exact inv.bare i dead
  · by_cases same : i = idx
    · subst same
      simp [State.setRow, bare] at held
    · exact inv.entries i parent (rows same ▸ held)
  · rw [rows (lives live).1]
    exact inv.indv i (lives live).2
  · rw [rows (lives live).1]
    exact inv.group i (lives live).2
  · exact (links i (lives live).2 member).trans (inv.linked i (lives live).2 member pending)
  · exact (inv.tally i (lives live).2).congr
      (fun member => flight_congr rfl rfl (links i (lives live).2 member)) fun _ _ => Iff.rfl
  · rw [rows (lives live).1]
    exact inv.counted i (lives live).2
  · rw [rows (lives live).1]
    exact inv.blamed i (lives live).2
  · rw [rows (lives live).1]
    exact inv.spared i (lives live).2
  · rw [rows (lives live).1]
    exact inv.settled i (lives live).2
  · rw [rows (lives live).1]
    exact inv.pausing i (lives live).2
  · refine (inv.sound activity running).frame (fun i target => ?_) (fun _ _ same => same)
      fun _ sound => sound
    have differs : i ≠ idx := fun same => free activity running (same ▸ target)
    exact ⟨rfl, by simp only [State.Live, rows differs], congrArg SyncTableRow.type (rows differs),
      rfl, rfl, fun _ => rfl⟩

theorem detach (live : s.Live idx) (unlocked : s.locked idx = false)
    (unlinked : ∀ parent ∈ (s.table idx).parentsList, ¬ s.Lives parent.group) :
    (s.setRow idx (s.table idx).detach).Inv := by
  refine inv.vanish rfl ?_ (fun _ => inv.not_target live unlocked) unlinked
  refine List.filter_eq_nil_iff.mpr fun parent held => ?_
  have := (inv.entries idx parent held).1
  simp only [decide_eq_true_eq]
  omega

theorem release (dead : ¬ s.Live idx)
    (free : ∀ activity ∈ s.running, activity.target ≠ some idx) :
    State.Inv { s with bitmap := update s.bitmap idx false } := by
  refine
    { inv with
      bit := fun i live =>
        (update_of_ne (show i ≠ idx from fun same => dead (same ▸ live)) ..).trans (inv.bit i live)
      sound := fun activity running => (inv.sound activity running).frame
        (fun i target => ⟨?_, Iff.rfl, rfl, rfl, rfl, fun _ => rfl⟩) (fun _ _ same => same)
        fun _ sound => sound }
  exact update_of_ne (show i ≠ idx from fun same => free activity running (same ▸ target)) ..

end Destroy

end State.Inv

end VendorModules.CamSync
