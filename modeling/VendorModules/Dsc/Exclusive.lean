import VendorModules.Dsc.World

namespace VendorModules.Dsc

open Lib

/-! Activity down the tree is the same however a psoc is reached. -/

theorem Psoc.busy_eq_false {psoc : Psoc} :
    psoc.busy = false ↔
      psoc.trans.active = false ∧ ∀ vdev ∈ psoc.vdevs, vdev.trans.active = false := by
  simp [Psoc.busy, Psoc.transActiveDownTree]

namespace Driver

theorem transActiveDownTree_eq_false {driver : Driver} :
    driver.transActiveDownTree = false ↔
      ∀ psoc ∈ driver.psocs, psoc.busy = false := by
  simp [transActiveDownTree]

end Driver

theorem Driver.canTrans_true {driver : Driver} (free : driver.canTrans = true) :
    driver.trans.active = false ∧ driver.transActiveDownTree = false := by
  simp only [canTrans, Trans.activeOrQueued, Bool.and_eq_true, Bool.not_eq_true',
    Bool.or_eq_false_iff] at free
  exact ⟨free.1.1, free.2⟩

theorem Driver.psocCanTrans_success {driver : Driver} {psoc : Psoc}
    (free : driver.psocCanTrans psoc = .success) :
    driver.trans.active = false ∧ psoc.busy = false := by
  unfold psocCanTrans at free
  split at free
  · cases free
  · split at free
    · cases free
    · simp_all [Trans.activeOrQueued, Psoc.busy]

theorem Driver.psocCanTrans_idle {driver : Driver} {psoc : Psoc}
    (passed : driver.psocCanTrans psoc ≠ .eInval) :
    driver.trans.activeOrQueued = false := by
  unfold psocCanTrans at passed
  split at passed
  · exact absurd rfl passed
  next idle => simpa using idle

theorem Driver.psocCanTrans_eAgain {driver : Driver} {psoc : Psoc}
    (refused : driver.psocCanTrans psoc = .eAgain) :
    psoc.trans.queued = true ∨ psoc.busy = true := by
  unfold psocCanTrans at refused
  split at refused
  · cases refused
  · split at refused
    next blocked =>
      simp only [Trans.activeOrQueued, Bool.or_eq_true] at blocked
      rcases blocked with (active | queued) | below
      · exact .inr (by simp [Psoc.busy, active])
      · exact .inl queued
      · exact .inr (by simp [Psoc.busy, below])
    · cases refused

theorem Driver.vdevCanTrans_idle {driver : Driver} {platform : Platform} {psoc : Psoc}
    {vdev : Node} (passed : driver.vdevCanTrans platform psoc vdev ≠ .eInval) :
    driver.trans.activeOrQueued = false := by
  unfold vdevCanTrans at passed
  split at passed
  · exact absurd rfl passed
  next idle => simpa using idle

theorem Driver.vdevCanTrans_eBusy {driver : Driver} {platform : Platform} {psoc : Psoc}
    {vdev : Node} (refused : driver.vdevCanTrans platform psoc vdev = .eBusy) :
    psoc.trans.activeOrQueued = true ∨ vdev.trans.activeOrQueued = true := by
  unfold vdevCanTrans at refused
  split at refused
  · cases refused
  · split at refused
    · cases refused
    · split at refused
      next above => exact .inl above
      · split at refused
        next own => exact .inr own
        · cases refused

theorem Driver.vdevCanTrans_success {driver : Driver} {platform : Platform}
    {psoc : Psoc} {vdev : Node}
    (free : driver.vdevCanTrans platform psoc vdev = .success) :
    driver.trans.active = false ∧ psoc.trans.activeOrQueued = false ∧
      vdev.trans.active = false := by
  unfold vdevCanTrans at free
  split at free
  · cases free
  · split at free
    · cases free
    · split at free
      · split at free <;> cases free
      · split at free
        · cases free
        · simp_all [Trans.activeOrQueued]

theorem Driver.psocCanTrigger_true {driver : Driver} {psoc : Psoc}
    (free : driver.psocCanTrigger psoc = true) : psoc.busy = false := by
  simp only [psocCanTrigger, Bool.and_eq_true, Bool.not_eq_true'] at free
  simp [Psoc.busy, free.1.2, free.2]

structure Psoc.Exclusive (psoc : Psoc) : Prop where
  below : psoc.trans.active = true → ∀ vdev ∈ psoc.vdevs, vdev.trans.active = false
  calm : psoc.trans.panicked = false
  vdevsCalm : ∀ vdev ∈ psoc.vdevs, vdev.trans.panicked = false

structure Driver.Exclusive (driver : Driver) : Prop where
  below : driver.trans.active = true → driver.transActiveDownTree = false
  calm : driver.trans.panicked = false
  psocs : ∀ psoc ∈ driver.psocs, psoc.Exclusive

namespace Psoc.Exclusive

variable {psoc : Psoc}

theorem start (exclusive : psoc.Exclusive) (idle : psoc.busy = false) (desc : String) :
    Psoc.Exclusive { psoc with toNode := psoc.toNode.start desc } where
  below := fun _ => (Psoc.busy_eq_false.1 idle).2
  calm := by simp [exclusive.calm, (Psoc.busy_eq_false.1 idle).1]
  vdevsCalm := exclusive.vdevsCalm

theorem trigger (exclusive : psoc.Exclusive) (idle : psoc.busy = false) :
    Psoc.Exclusive { psoc with toNode := psoc.toNode.trigger } where
  below := fun _ => (Psoc.busy_eq_false.1 idle).2
  calm := by simp [exclusive.calm, (Psoc.busy_eq_false.1 idle).1]
  vdevsCalm := exclusive.vdevsCalm

theorem stop (exclusive : psoc.Exclusive) (active : psoc.trans.active = true) :
    Psoc.Exclusive { psoc with toNode := psoc.toNode.stop } where
  below := by simp
  calm := by simp [exclusive.calm, active]
  vdevsCalm := exclusive.vdevsCalm

theorem editVdev (exclusive : psoc.Exclusive) (j : Nat) (change : Node → Node)
    (quiet : psoc.trans.active = true → ∀ vdev, psoc.vdevs[j]? = some vdev →
      (change vdev).trans.active = false)
    (calm : ∀ vdev, psoc.vdevs[j]? = some vdev → vdev.trans.panicked = false →
      (change vdev).trans.panicked = false) :
    Psoc.Exclusive { psoc with vdevs := psoc.vdevs.modify j change } where
  below := by
    intro active vdev member
    rcases mem_modify member with old | ⟨before, there, rfl⟩
    · exact exclusive.below active vdev old
    · exact quiet active before there
  calm := exclusive.calm
  vdevsCalm := by
    intro vdev member
    rcases mem_modify member with old | ⟨before, there, rfl⟩
    · exact exclusive.vdevsCalm vdev old
    · exact calm before there (exclusive.vdevsCalm before (List.mem_of_getElem? there))

theorem triggerTree (exclusive : psoc.Exclusive) (idle : psoc.busy = false) :
    psoc.triggerTree.Exclusive := by
  obtain ⟨inactive, below⟩ := Psoc.busy_eq_false.1 idle
  unfold Psoc.triggerTree
  split
  · exact exclusive.trigger idle
  · refine ⟨fun active => ?_, exclusive.calm, ?_⟩
    · simp [inactive] at active
    · intro vdev member
      obtain ⟨before, there, rfl⟩ := List.mem_map.1 member
      simp [exclusive.vdevsCalm before there, below before there]

end Psoc.Exclusive

namespace Driver.Exclusive

variable {driver : Driver}

theorem start (exclusive : driver.Exclusive) (free : driver.canTrans = true)
    (desc : String) : (driver.edit .driver (Node.start desc)).Exclusive := by
  obtain ⟨inactive, idle⟩ := canTrans_true free
  exact ⟨fun _ => idle, by simp [edit, exclusive.calm, inactive], exclusive.psocs⟩

theorem trigger (exclusive : driver.Exclusive) (free : driver.canTrigger = true) :
    (driver.edit .driver Node.trigger).Exclusive := by
  obtain ⟨inactive, idle⟩ : driver.trans.active = false ∧
      driver.transActiveDownTree = false := by simpa [canTrigger] using free
  exact ⟨fun _ => idle, by simp [edit, exclusive.calm, inactive], exclusive.psocs⟩

theorem stop (exclusive : driver.Exclusive) (active : driver.trans.active = true) :
    (driver.edit .driver Node.stop).Exclusive where
  below := by simp [edit]
  calm := by simp [edit, exclusive.calm, active]
  psocs := exclusive.psocs

theorem editPsoc (exclusive : driver.Exclusive) (i : Nat) (change : Psoc → Psoc)
    (quiet : driver.trans.active = true → ∀ psoc, driver.psocs[i]? = some psoc →
      (change psoc).busy = false)
    (keep : ∀ psoc, driver.psocs[i]? = some psoc → psoc.Exclusive →
      (change psoc).Exclusive) :
    (driver.editPsoc i change).Exclusive where
  below := by
    intro active
    rw [transActiveDownTree_eq_false]
    intro psoc member
    rcases mem_modify member with old | ⟨before, there, rfl⟩
    · exact transActiveDownTree_eq_false.1 (exclusive.below active) psoc old
    · exact quiet active before there
  calm := exclusive.calm
  psocs := by
    intro psoc member
    rcases mem_modify member with old | ⟨before, there, rfl⟩
    · exact exclusive.psocs psoc old
    · exact keep before there (exclusive.psocs before (List.mem_of_getElem? there))

theorem editSame (exclusive : driver.Exclusive) (node : NodeId) (change : Node → Node)
    (active : ∀ here, (change here).trans.active = here.trans.active)
    (panicked : ∀ here, (change here).trans.panicked = here.trans.panicked) :
    (driver.edit node change).Exclusive := by
  cases node with
  | driver =>
    refine ⟨fun above => exclusive.below ?_, ?_, exclusive.psocs⟩
    · exact (active driver.toNode).symm.trans above
    · exact (panicked driver.toNode).trans exclusive.calm
  | psoc i =>
    refine exclusive.editPsoc i _ (fun above psoc there => ?_) fun psoc _ keep => ?_
    · have idle := transActiveDownTree_eq_false.1 (exclusive.below above) psoc
        (List.mem_of_getElem? there)
      simpa [Psoc.busy, Psoc.transActiveDownTree, active] using idle
    · exact ⟨fun above => keep.below ((active psoc.toNode).symm.trans above),
        (panicked psoc.toNode).trans keep.calm, keep.vdevsCalm⟩
  | vdev i j =>
    refine exclusive.editPsoc i _ (fun above psoc there => ?_) fun psoc _ keep => ?_
    · have idle := Psoc.busy_eq_false.1 (transActiveDownTree_eq_false.1
        (exclusive.below above) psoc (List.mem_of_getElem? there))
      refine Psoc.busy_eq_false.2 ⟨idle.1, fun vdev member => ?_⟩
      rcases mem_modify member with old | ⟨before, place, rfl⟩
      · exact idle.2 vdev old
      · rw [active]
        exact idle.2 before (List.mem_of_getElem? place)
    · refine keep.editVdev j _ (fun above vdev place => ?_) fun vdev _ calm => ?_
      · rw [active]
        exact keep.below above vdev (List.mem_of_getElem? place)
      · rwa [panicked]

theorem triggerTrans (exclusive : driver.Exclusive)
    (inactive : driver.trans.active = false)
    (idle : driver.transActiveDownTree = false) : driver.triggerTrans.Exclusive := by
  rcases driver.triggerTrans_cases with ⟨_, result⟩ | ⟨_, result⟩
  · rw [result]
    exact exclusive.trigger (by simp [canTrigger, inactive, idle])
  · rw [result]
    refine ⟨fun active => ?_, exclusive.calm, ?_⟩
    · simp [inactive] at active
    · intro psoc member
      obtain ⟨before, there, rfl⟩ := List.mem_map.1 member
      exact (exclusive.psocs before there).triggerTree
        (transActiveDownTree_eq_false.1 idle before there)

theorem psocTriggerTrans (exclusive : driver.Exclusive) {i : Nat}
    (inactive : driver.trans.active = false)
    (idle : ∀ psoc, driver.psocs[i]? = some psoc → psoc.busy = false) :
    (driver.psocTriggerTrans i).Exclusive := by
  rcases driver.psocTriggerTrans_cases i with
    ⟨_, result⟩ | ⟨_, _, result⟩ | ⟨_, free, result⟩
  · rw [result]
    refine exclusive.editPsoc i _ (fun active => ?_) fun psoc there keep => ?_
    · simp [inactive] at active
    · exact keep.triggerTree (idle psoc there)
  · rwa [result]
  · rw [result]
    exact exclusive.trigger free

theorem transStart (exclusive : driver.Exclusive) (desc : String) :
    (driver.transStart desc).2.Exclusive := by
  rcases driver.transStart_cases desc with ⟨free, result⟩ | ⟨_, result⟩
  · rw [result]
    exact exclusive.start free desc
  · rwa [result]

theorem transStartWait (exclusive : driver.Exclusive) (desc : String) :
    (driver.transStartWait desc).2.Exclusive := by
  rcases driver.transStartWait_cases desc with ⟨free, result⟩ | ⟨_, result⟩
  · rw [result]
    exact exclusive.start free desc
  · rw [result]
    exact exclusive.editSame _ _ (fun _ => rfl) fun _ => rfl

theorem transStop (exclusive : driver.Exclusive) (active : driver.trans.active = true) :
    driver.transStop.Exclusive :=
  (exclusive.stop active).triggerTrans rfl (exclusive.below active)

theorem psocStart (exclusive : driver.Exclusive) {i : Nat} {psoc : Psoc}
    (found : driver.psocs[i]? = some psoc)
    (free : driver.psocCanTrans psoc = .success) (desc : String) :
    (driver.edit (.psoc i) (Node.start desc)).Exclusive := by
  obtain ⟨inactive, idle⟩ := psocCanTrans_success free
  refine exclusive.editPsoc i _ (fun active => ?_) fun other there keep => ?_
  · simp [inactive] at active
  · rw [found] at there
    cases there
    exact keep.start idle desc

theorem psocTransStart (exclusive : driver.Exclusive) (i : Nat) (desc : String) :
    (driver.psocTransStart i desc).2.Exclusive := by
  rcases driver.psocTransStart_cases i desc with
    ⟨psoc, found, free, result⟩ | result | ⟨_, _, _, result⟩
  · rw [result]
    exact exclusive.psocStart found free desc
  · rwa [result]
  · rwa [result]

theorem psocTransStartWait (exclusive : driver.Exclusive) (i : Nat) (desc : String) :
    (driver.psocTransStartWait i desc).2.Exclusive := by
  rcases driver.psocTransStartWait_cases i desc with
    ⟨psoc, found, free, result⟩ | result | ⟨_, _, _, result⟩
  · rw [result]
    exact exclusive.psocStart found free desc
  · rwa [result]
  · rw [result]
    exact exclusive.editSame _ _ (fun _ => rfl) fun _ => rfl

theorem psocTransStop (exclusive : driver.Exclusive) {i : Nat}
    (owned : driver.ActiveAt (.psoc i) ∨ driver.trans.active = true) :
    (driver.psocTransStop i).Exclusive := by
  unfold Driver.psocTransStop
  cases found : driver.psocs[i]? with
  | none => exact exclusive
  | some psoc =>
    have member := List.mem_of_getElem? found
    by_cases active : psoc.trans.active = true
    · -- an active psoc excludes activity on the driver and on its vdevs
      have inactive : driver.trans.active = false := by
        by_contra above
        have idle := transActiveDownTree_eq_false.1
          (exclusive.below (by simpa using above)) psoc member
        simp [Psoc.busy, active] at idle
      simp only [active, if_true]
      refine psocTriggerTrans (i := i) ?_ inactive fun after there => ?_
      · refine exclusive.editPsoc i _ (fun above => ?_) fun other there keep => ?_
        · simp [inactive] at above
        · rw [found] at there
          cases there
          exact keep.stop active
      · obtain rfl : after = { psoc with toNode := psoc.toNode.stop } := by
          simpa [edit, Driver.editPsoc, found, eq_comm] using there
        exact Psoc.busy_eq_false.2
          ⟨rfl, (exclusive.psocs psoc member).below active⟩
    · have above : driver.trans.active = true := by
        rcases owned with ⟨node, there, here⟩ | above
        · obtain rfl : psoc.toNode = node := by simpa [node?, found] using there
          exact absurd here active
        · exact above
      simp only [active]
      refine psocTriggerTrans (exclusive.stop above) rfl fun after there => ?_
      exact transActiveDownTree_eq_false.1 (exclusive.below above) after
        (List.mem_of_getElem? there)

theorem vdevStart (exclusive : driver.Exclusive) {platform : Platform} {i j : Nat}
    {psoc : Psoc} {vdev : Node} (found : driver.psocs[i]? = some psoc)
    (here : psoc.vdevs[j]? = some vdev)
    (free : driver.vdevCanTrans platform psoc vdev = .success) (desc : String) :
    (driver.edit (.vdev i j) (Node.start desc)).Exclusive := by
  obtain ⟨inactive, above, idle⟩ := vdevCanTrans_success free
  refine exclusive.editPsoc i _ (fun active => ?_) fun other there keep => ?_
  · simp [inactive] at active
  · rw [found] at there
    cases there
    refine keep.editVdev j _ (fun active => ?_) fun other there calm => ?_
    · simp [Trans.activeOrQueued, active] at above
    · rw [here] at there
      cases there
      simp [calm, idle]

theorem vdevTransStart (exclusive : driver.Exclusive) (platform : Platform) (i j : Nat)
    (desc : String) : (driver.vdevTransStart platform i j desc).2.Exclusive := by
  rcases driver.vdevTransStart_cases platform i j desc with
    ⟨psoc, vdev, found, here, free, result⟩ | result | ⟨_, _, _, _, _, result⟩
  · rw [result]
    exact exclusive.vdevStart found here free desc
  · rwa [result]
  · rwa [result]

theorem vdevTransStartWait (exclusive : driver.Exclusive) (platform : Platform)
    (i j : Nat) (desc : String) :
    (driver.vdevTransStartWait platform i j desc).2.Exclusive := by
  rcases driver.vdevTransStartWait_cases platform i j desc with
    ⟨psoc, vdev, found, here, free, result⟩ | result | ⟨_, _, _, _, _, result⟩
  · rw [result]
    exact exclusive.vdevStart found here free desc
  · rwa [result]
  · rw [result]
    exact exclusive.editSame _ _ (fun _ => rfl) fun _ => rfl

theorem vdevTransStop (exclusive : driver.Exclusive) {i j : Nat}
    (owned : driver.ActiveAt (.vdev i j)) : (driver.vdevTransStop i j).Exclusive := by
  obtain ⟨vdev, found, active⟩ := owned
  obtain ⟨psoc, there, here⟩ : ∃ psoc, driver.psocs[i]? = some psoc ∧
      psoc.vdevs[j]? = some vdev := by simpa [node?, Option.bind_eq_some_iff] using found
  have keep := exclusive.psocs psoc (List.mem_of_getElem? there)
  have member := List.mem_of_getElem? here
  -- nothing above an active vdev is active
  have above : psoc.trans.active = false := by
    by_contra active'
    simp [keep.below (by simpa using active') vdev member] at active
  have inactive : driver.trans.active = false := by
    by_contra active'
    have idle := Psoc.busy_eq_false.1 (transActiveDownTree_eq_false.1
      (exclusive.below (by simpa using active')) psoc (List.mem_of_getElem? there))
    simp [idle.2 vdev member] at active
  have stopped : (driver.edit (.vdev i j) Node.stop).Exclusive := by
    refine exclusive.editPsoc i _ (fun above => ?_) fun other place keep => ?_
    · simp [inactive] at above
    · refine keep.editVdev j _ (fun _ _ _ => rfl) fun before place' calm => ?_
      rw [there] at place
      cases place
      rw [here] at place'
      cases place'
      simp [calm, active]
  have place : (driver.edit (.vdev i j) Node.stop).psocs[i]? =
      some { psoc with vdevs := psoc.vdevs.modify j Node.stop } := by
    simp [edit, Driver.editPsoc, there]
  unfold Driver.vdevTransStop
  rcases vdevTriggerTrans_cases _ j place with
    ⟨_, _, result⟩ | ⟨_, free, result⟩ | ⟨_, _, _, result⟩ |
      ⟨_, _, free, result⟩ | ⟨_, _, result⟩
  · rwa [result]
  · rw [result]
    exact stopped.trigger free
  · rwa [result]
  · rw [result]
    refine stopped.editPsoc i _ (fun active => ?_) fun other place' keep => ?_
    · simp [edit, Driver.editPsoc, inactive] at active
    · rw [place] at place'
      cases place'
      exact keep.trigger (psocCanTrigger_true free)
  · rw [result]
    refine stopped.editPsoc i _ (fun active => ?_) fun other place' keep => ?_
    · simp [edit, Driver.editPsoc, inactive] at active
    · rw [place] at place'
      cases place'
      refine keep.editVdev j _ (fun active => ?_) fun before here' calm => ?_
      · simp [above] at active
      · obtain rfl : vdev.stop = before := by simpa [here] using here'
        simpa using calm

theorem inactive_of_busy (exclusive : driver.Exclusive) {psoc : Psoc}
    (member : psoc ∈ driver.psocs) (busy : psoc.busy = true) :
    driver.trans.active = false := by
  by_contra active
  have idle := transActiveDownTree_eq_false.1 (exclusive.below (by simpa using active))
    psoc member
  simp [busy] at idle

end Driver.Exclusive

namespace World

variable {world : World}

theorem transStart_exclusive {driver : Driver} (exclusive : driver.Exclusive)
    (platform : Platform) (desc : String) (node : NodeId) :
    (transStart driver platform desc node).2.Exclusive := by
  cases node with
  | driver => exact exclusive.transStart desc
  | psoc i => exact exclusive.psocTransStart i desc
  | vdev i j => exact exclusive.vdevTransStart platform i j desc

theorem transStartWait_exclusive {driver : Driver} (exclusive : driver.Exclusive)
    (platform : Platform) (desc : String) (node : NodeId) :
    (transStartWait driver platform desc node).2.Exclusive := by
  cases node with
  | driver => exact exclusive.transStartWait desc
  | psoc i => exact exclusive.psocTransStartWait i desc
  | vdev i j => exact exclusive.vdevTransStartWait platform i j desc

theorem transStop_exclusive {driver : Driver} (exclusive : driver.Exclusive)
    {node : NodeId} (owned : driver.ActiveAt (stopTarget driver node)) :
    (transStop driver node).Exclusive := by
  cases node with
  | driver =>
    obtain ⟨_, found, active⟩ := owned
    cases found
    exact exclusive.transStop active
  | psoc i =>
    refine exclusive.psocTransStop ?_
    by_cases here : driver.ActiveAt (.psoc i)
    · exact .inl here
    · simp only [stopTarget, here, if_false] at owned
      obtain ⟨_, found, active⟩ := owned
      cases found
      exact .inr active
  | vdev i j => exact exclusive.vdevTransStop owned

theorem sampleOps_exclusive {driver : Driver} (exclusive : driver.Exclusive)
    (node : NodeId) : (driver.sampleOps node).2.Exclusive := by
  unfold Driver.sampleOps
  cases driver.node? node with
  | none => exact exclusive
  | some found =>
    simp only
    split
    · exact exclusive.editSame _ _ (fun _ => rfl) fun _ => rfl
    · exact exclusive

theorem opStart_exclusive {driver : Driver} (exclusive : driver.Exclusive)
    (platform : Platform) (node : NodeId) :
    (driver.opStart platform node).2.Exclusive := by
  unfold Driver.opStart
  split
  · exact exclusive.editSame _ _ (fun _ => rfl) fun _ => rfl
  · exact exclusive

theorem Fresh.exclusive (fresh : world.Fresh) : world.driver.Exclusive := by
  have top : world.driver.toNode = .init := fresh.node?_eq
    (show world.driver.node? .driver = some world.driver.toNode from rfl)
  refine ⟨fun active => ?_, by rw [top]; rfl, fun psoc member => ?_⟩
  · rw [top] at active
    cases active
  · obtain ⟨here, below⟩ := fresh.psoc_eq member
    refine ⟨fun active => ?_, by rw [here]; rfl, fun vdev within => ?_⟩
    · rw [here] at active
      cases active
    · rw [below vdev within]
      rfl

theorem apply_exclusive {move : Move} (exclusive : world.driver.Exclusive)
    (allowed : world.Allowed move) : (world.apply move).driver.Exclusive := by
  cases move with
  | transStart platform node desc =>
    exact transStart_exclusive exclusive platform desc node
  | transStartWait platform node desc =>
    exact transStartWait_exclusive exclusive platform desc node
  | transStop node => exact transStop_exclusive exclusive allowed.2.1
  | opStart platform node => exact opStart_exclusive exclusive platform node
  | opStop node => exact exclusive.editSame _ _ (fun _ => rfl) fun _ => rfl
  | waitForOps node => exact exclusive
  | sample node =>
    change (world.sampleNext node).driver.Exclusive
    unfold sampleNext
    split
    · exact exclusive
    · exact sampleOps_exclusive exclusive _
    · exact exclusive
  | wake node =>
    change (world.wakeUp node).driver.Exclusive
    unfold wakeUp
    split
    · exact exclusive
    · exact exclusive
  | otherSample node => exact sampleOps_exclusive exclusive node

theorem exclusive_of_reachable (reached : Reachable Fresh Step world) :
    world.driver.Exclusive := by
  refine reached.invariant (fun _ fresh => fresh.exclusive) ?_
  rintro before after exclusive ⟨move, allowed, rfl⟩
  exact apply_exclusive exclusive allowed

end World

namespace Driver.Exclusive

variable {driver : Driver}

theorem not_active_below (exclusive : driver.Exclusive) {node below : NodeId}
    (above : node.Above below) (active : driver.ActiveAt node) :
    ¬driver.ActiveAt below := by
  rintro ⟨found, there, here⟩
  obtain ⟨holder, place, held⟩ := active
  cases node with
  | driver =>
    cases place
    have idle := transActiveDownTree_eq_false.1 (exclusive.below held)
    cases below with
    | driver => exact above
    | psoc i =>
      obtain ⟨psoc, member, rfl⟩ : ∃ psoc, driver.psocs[i]? = some psoc ∧
          psoc.toNode = found := by simpa [node?] using there
      have quiet := Psoc.busy_eq_false.1 (idle psoc (List.mem_of_getElem? member))
      simp [quiet.1] at here
    | vdev i j =>
      obtain ⟨psoc, member, within⟩ : ∃ psoc, driver.psocs[i]? = some psoc ∧
          psoc.vdevs[j]? = some found := by
        simpa [node?, Option.bind_eq_some_iff] using there
      have quiet := Psoc.busy_eq_false.1 (idle psoc (List.mem_of_getElem? member))
      simp [quiet.2 found (List.mem_of_getElem? within)] at here
  | psoc i =>
    cases below with
    | driver => exact above
    | psoc k => exact above
    | vdev k j =>
      cases above
      obtain ⟨psoc, member, rfl⟩ : ∃ psoc, driver.psocs[i]? = some psoc ∧
          psoc.toNode = holder := by simpa [node?] using place
      have within : psoc.vdevs[j]? = some found := by
        simpa [node?, member] using there
      have quiet := (exclusive.psocs psoc (List.mem_of_getElem? member)).below held
      simp [quiet found (List.mem_of_getElem? within)] at here
  | vdev i j => cases below <;> exact above

theorem panicked_eq_false (exclusive : driver.Exclusive) {node : NodeId} {found : Node}
    (there : driver.node? node = some found) : found.trans.panicked = false := by
  cases node with
  | driver =>
    cases there
    exact exclusive.calm
  | psoc i =>
    obtain ⟨psoc, member, rfl⟩ : ∃ psoc, driver.psocs[i]? = some psoc ∧
        psoc.toNode = found := by simpa [node?] using there
    exact (exclusive.psocs psoc (List.mem_of_getElem? member)).calm
  | vdev i j =>
    obtain ⟨psoc, member, within⟩ : ∃ psoc, driver.psocs[i]? = some psoc ∧
        psoc.vdevs[j]? = some found := by
      simpa [node?, Option.bind_eq_some_iff] using there
    exact (exclusive.psocs psoc (List.mem_of_getElem? member)).vdevsCalm found
      (List.mem_of_getElem? within)

end Driver.Exclusive

namespace World

/-- The nodes with an active transition never lie above one another, and no
transition was ever started on a node that had one or stopped on a node without. -/
theorem activeAt_isAntichain_of_reachable {world : World}
    (reached : Reachable Fresh Step world) :
    IsAntichain NodeId.Above { node | world.driver.ActiveAt node } ∧
      ∀ node found, world.driver.node? node = some found →
        found.trans.panicked = false := by
  have exclusive := exclusive_of_reachable reached
  refine ⟨?_, fun node found there => exclusive.panicked_eq_false there⟩
  intro node active below activeBelow _ above
  exact exclusive.not_active_below above active activeBelow

/-- Two vdevs of one psoc are in transition; the next transitions of the first vdev, of
the psoc and of the driver wait, in this order; then the first vdev's stops. -/
def queueMoves : List Move :=
  let platform : Platform := { recovering := false, unloading := false }
  [.transStart platform (.vdev 0 0) "vdev 1", .transStart platform (.vdev 0 1) "vdev 2",
    .transStartWait platform (.vdev 0 0) "vdev 1 again",
    .transStartWait platform (.psoc 0) "psoc", .transStartWait platform .driver "driver",
    .transStop (.vdev 0 0)]

def queueWorld : World := ((create [2, 2]).run queueMoves).get (by decide +kernel)

theorem queueWorld_reachable : Reachable Fresh Step queueWorld :=
  run_reachable (.start ⟨_, rfl⟩) (fun _ move _ allowed => ⟨move, allowed, rfl⟩) _

theorem queueWorld_activeAt_isAntichain :
    IsAntichain NodeId.Above { node | queueWorld.driver.ActiveAt node } ∧
      ∀ node found, queueWorld.driver.node? node = some found →
        found.trans.panicked = false :=
  activeAt_isAntichain_of_reachable queueWorld_reachable

end World

end VendorModules.Dsc
