import VendorModules.Dsc.Exclusive

namespace VendorModules.Dsc

open Lib

theorem Trans.active_of_trigger_queued {trans : Trans}
    (queued : trans.trigger.2.queued = true) : trans.trigger.2.active = true := by
  by_cases waits : trans.queued = true
  · simp [waits]
  · have same := Trans.trigger_of_not_queued (by simpa using waits)
    rw [same] at queued
    exact absurd queued waits

/-- Whoever waits here is behind something that will trigger it: activity on its own
path, or a queue above it. `above` says that the driver is active or queued. -/
structure Psoc.Attended (above : Bool) (psoc : Psoc) : Prop where
  own : psoc.trans.queued = true → above = true ∨ psoc.busy = true
  vdevs : ∀ vdev ∈ psoc.vdevs, vdev.trans.queued = true →
    above = true ∨ psoc.trans.activeOrQueued = true ∨ vdev.trans.active = true

structure Driver.Attended (driver : Driver) : Prop where
  own : driver.trans.queued = true →
    driver.trans.active = true ∨ driver.transActiveDownTree = true
  psocs : ∀ psoc ∈ driver.psocs, psoc.Attended driver.trans.activeOrQueued

namespace Psoc

theorem busy_editVdev (psoc : Psoc) (j : Nat) (change : Node → Node)
    (active : ∀ vdev, (change vdev).trans.active = vdev.trans.active) :
    Psoc.busy { psoc with vdevs := psoc.vdevs.modify j change } = psoc.busy := by
  have below : (psoc.vdevs.modify j change).any (fun vdev => vdev.trans.active) =
      psoc.vdevs.any fun vdev => vdev.trans.active := any_modify psoc.vdevs j active
  simp only [busy, transActiveDownTree, below]

theorem attended_of_above (psoc : Psoc) : psoc.Attended true where
  own := fun _ => .inl rfl
  vdevs := fun _ _ _ => .inl rfl

theorem attended_of_active {psoc : Psoc} (active : psoc.trans.active = true)
    (above : Bool) : psoc.Attended above where
  own := fun _ => .inr (by simp [busy, active])
  vdevs := fun _ _ _ => .inr (.inl (by simp [Trans.activeOrQueued, active]))

theorem attended_of_busy {psoc : Psoc} (queued : psoc.trans.queued = true)
    (active : psoc.busy = true) (above : Bool) : psoc.Attended above where
  own := fun _ => .inr active
  vdevs := fun _ _ _ => .inr (.inl (by simp [Trans.activeOrQueued, queued]))

theorem attended_of_not_queued {psoc : Psoc} (queued : psoc.trans.queued = false)
    (below : ∀ vdev ∈ psoc.vdevs, vdev.trans.queued = true → vdev.trans.active = true)
    (above : Bool) : psoc.Attended above where
  own := fun waits => by simp [queued] at waits
  vdevs := fun vdev member waits => .inr (.inr (below vdev member waits))

theorem triggerTree_attended (psoc : Psoc) (above : Bool) :
    psoc.triggerTree.Attended above := by
  unfold triggerTree
  split
  next triggered =>
    exact attended_of_active (by simp_all) above
  next idle =>
    refine attended_of_not_queued (by simpa using idle) (fun vdev member waits => ?_) above
    obtain ⟨before, _, rfl⟩ := List.mem_map.1 member
    exact Trans.active_of_trigger_queued waits

end Psoc

namespace Driver

variable {driver : Driver}

theorem attended_of_activeOrQueued (above : driver.trans.activeOrQueued = true)
    (own : driver.trans.active = true ∨ driver.transActiveDownTree = true) :
    driver.Attended where
  own := fun _ => own
  psocs := fun psoc _ => by
    rw [above]
    exact psoc.attended_of_above

theorem attended_of_active (active : driver.trans.active = true) : driver.Attended :=
  attended_of_activeOrQueued (by simp [Trans.activeOrQueued, active]) (.inl active)

theorem attended_of_canTrigger_false (queued : driver.trans.queued = true)
    (waits : driver.canTrigger = false) : driver.Attended := by
  refine attended_of_activeOrQueued (by simp [Trans.activeOrQueued, queued]) ?_
  simp only [canTrigger, Bool.and_eq_false_iff, Bool.not_eq_false'] at waits
  exact waits

theorem trigger_attended (queued : driver.trans.queued = true) :
    (driver.edit .driver Node.trigger).Attended := by
  apply attended_of_active
  simp [edit, queued]

theorem attended_of_not_queued (queued : driver.trans.queued = false)
    (psocs : ∀ psoc ∈ driver.psocs, psoc.Attended false) : driver.Attended where
  own := fun waits => by simp [queued] at waits
  psocs := fun psoc member =>
    ⟨fun waits => .inr (((psocs psoc member).own waits).resolve_left (by simp)),
      fun vdev below waits =>
        .inr (((psocs psoc member).vdevs vdev below waits).resolve_left (by simp))⟩

theorem exists_activeAt_of_busy {i : Nat} {psoc : Psoc}
    (found : driver.psocs[i]? = some psoc) (busy : psoc.busy = true) :
    ∃ other, (NodeId.psoc i).Covers other ∧ driver.ActiveAt other := by
  simp only [Psoc.busy, Psoc.transActiveDownTree, Bool.or_eq_true, List.any_eq_true]
    at busy
  rcases busy with active | ⟨vdev, member, active⟩
  · exact ⟨.psoc i, NodeId.covers_refl _, psoc.toNode, by simp [node?, found], active⟩
  · obtain ⟨j, here⟩ := List.mem_iff_getElem?.1 member
    exact ⟨.vdev i j, .inr rfl, vdev, by simp [node?, found, here], active⟩

theorem exists_activeAt (busy : driver.transActiveDownTree = true) :
    ∃ other, driver.ActiveAt other := by
  obtain ⟨psoc, member, active⟩ := List.any_eq_true.1 busy
  obtain ⟨i, found⟩ := List.mem_iff_getElem?.1 member
  obtain ⟨other, _, held⟩ := exists_activeAt_of_busy found active
  exact ⟨other, held⟩

namespace Attended

theorem psocs_false (attended : driver.Attended)
    (idle : driver.trans.activeOrQueued = false) :
    ∀ psoc ∈ driver.psocs, psoc.Attended false := fun psoc member => by
  have keep := attended.psocs psoc member
  rwa [idle] at keep

theorem editPsoc (attended : driver.Attended) {i : Nat} {change : Psoc → Psoc}
    (idle : driver.trans.activeOrQueued = false)
    (changed : ∀ psoc, driver.psocs[i]? = some psoc → psoc.Attended false →
      (change psoc).Attended false) : (driver.editPsoc i change).Attended := by
  refine attended_of_not_queued ?_ fun psoc member => ?_
  · simp only [Trans.activeOrQueued, Bool.or_eq_false_iff] at idle
    exact idle.2
  · rcases mem_modify member with old | ⟨before, there, rfl⟩
    · exact attended.psocs_false idle psoc old
    · exact changed before there
        (attended.psocs_false idle before (List.mem_of_getElem? there))

theorem transStart (attended : driver.Attended) (desc : String) :
    (driver.transStart desc).2.Attended := by
  rcases driver.transStart_cases desc with ⟨_, result⟩ | ⟨_, result⟩
  · rw [result]
    exact attended_of_active rfl
  · rwa [result]

theorem transStartWait (attended : driver.Attended) (desc : String) :
    (driver.transStartWait desc).2.Attended := by
  rcases driver.transStartWait_cases desc with ⟨_, result⟩ | ⟨refused, result⟩
  · rw [result]
    exact attended_of_active rfl
  · rw [result]
    refine attended_of_activeOrQueued (by simp [edit, Trans.activeOrQueued]) ?_
    have busy : driver.trans.active = true ∨ driver.transActiveDownTree = true := by
      by_cases queued : driver.trans.queued = true
      · exact attended.own queued
      · simpa [canTrans, Trans.activeOrQueued, queued, or_iff_not_imp_left] using refused
    exact busy

theorem transStop (driver : Driver) : driver.transStop.Attended := by
  unfold Driver.transStop
  rcases (driver.edit .driver Node.stop).triggerTrans_cases with
    ⟨queued, result⟩ | ⟨queued, result⟩
  · rw [result]
    exact trigger_attended queued
  · rw [result]
    refine attended_of_not_queued queued fun psoc member => ?_
    obtain ⟨before, _, rfl⟩ := List.mem_map.1 member
    exact before.triggerTree_attended false

theorem psocStart (attended : driver.Attended) {i : Nat} {psoc : Psoc}
    (free : driver.psocCanTrans psoc = .success) (desc : String) :
    (driver.edit (.psoc i) (Node.start desc)).Attended := by
  have passed : driver.psocCanTrans psoc ≠ .eInval := by simp [free]
  exact attended.editPsoc (psocCanTrans_idle passed) fun _ _ _ => Psoc.attended_of_active rfl false

theorem psocTransStart (attended : driver.Attended) (i : Nat) (desc : String) :
    (driver.psocTransStart i desc).2.Attended := by
  rcases driver.psocTransStart_cases i desc with
    ⟨psoc, _, free, result⟩ | result | ⟨_, _, _, result⟩
  · rw [result]
    exact attended.psocStart free desc
  · rwa [result]
  · rwa [result]

theorem psocTransStartWait (attended : driver.Attended) (i : Nat) (desc : String) :
    (driver.psocTransStartWait i desc).2.Attended := by
  rcases driver.psocTransStartWait_cases i desc with
    ⟨psoc, _, free, result⟩ | result | ⟨psoc, found, refused, result⟩
  · rw [result]
    exact attended.psocStart free desc
  · rwa [result]
  · rw [result]
    have passed : driver.psocCanTrans psoc ≠ .eInval := by simp [refused]
    refine attended.editPsoc (psocCanTrans_idle passed) fun other there keep => ?_
    rw [found] at there
    cases there
    refine Psoc.attended_of_busy (by simp) ?_ false
    -- the psoc was busy, or it was queued behind something busy
    have busy : psoc.busy = true := by
      rcases psocCanTrans_eAgain refused with queued | busy
      · exact (keep.own queued).resolve_left (by simp)
      · exact busy
    exact busy

theorem vdevStart (attended : driver.Attended) {platform : Platform} {i j : Nat}
    {psoc : Psoc} {vdev : Node} (found : driver.psocs[i]? = some psoc)
    (free : driver.vdevCanTrans platform psoc vdev = .success) (desc : String) :
    (driver.edit (.vdev i j) (Node.start desc)).Attended := by
  have passed : driver.vdevCanTrans platform psoc vdev ≠ .eInval := by simp [free]
  refine attended.editPsoc (vdevCanTrans_idle passed) fun other there keep => ?_
  rw [found] at there
  cases there
  have above : psoc.trans.activeOrQueued = false := (vdevCanTrans_success free).2.1
  refine Psoc.attended_of_not_queued ?_ (fun vdev member waits => ?_) false
  · simp only [Trans.activeOrQueued, Bool.or_eq_false_iff] at above
    exact above.2
  · rcases mem_modify member with old | ⟨before, _, rfl⟩
    · simpa [above] using keep.vdevs vdev old waits
    · rfl

theorem vdevTransStart (attended : driver.Attended) (platform : Platform) (i j : Nat)
    (desc : String) : (driver.vdevTransStart platform i j desc).2.Attended := by
  rcases driver.vdevTransStart_cases platform i j desc with
    ⟨psoc, vdev, found, _, free, result⟩ | result | ⟨_, _, _, _, _, result⟩
  · rw [result]
    exact attended.vdevStart found free desc
  · rwa [result]
  · rwa [result]

theorem vdevTransStartWait (attended : driver.Attended) (platform : Platform)
    (i j : Nat) (desc : String) :
    (driver.vdevTransStartWait platform i j desc).2.Attended := by
  rcases driver.vdevTransStartWait_cases platform i j desc with
    ⟨psoc, vdev, found, _, free, result⟩ | result |
      ⟨psoc, vdev, found, here, refused, result⟩
  · rw [result]
    exact attended.vdevStart found free desc
  · rwa [result]
  · rw [result]
    have passed : driver.vdevCanTrans platform psoc vdev ≠ .eInval := by simp [refused]
    refine attended.editPsoc (vdevCanTrans_idle passed) fun other there keep => ⟨fun waits => ?_, ?_⟩
    · -- the psoc and the activity below it are as before
      have busy : other.busy = true := (keep.own waits).resolve_left (by simp)
      exact .inr ((other.busy_editVdev j (Node.enqueue desc) fun _ => rfl).trans busy)
    · intro changed member waits
      rw [found] at there
      cases there
      rcases mem_modify member with old | ⟨before, place, rfl⟩
      · exact keep.vdevs changed old waits
      · rw [here] at place
        cases place
        rcases vdevCanTrans_eBusy refused with above | own
        · exact .inr (.inl above)
        · simp only [Trans.activeOrQueued, Bool.or_eq_true] at own
          rcases own with active | queued
          · exact .inr (.inr active)
          · exact keep.vdevs vdev (List.mem_of_getElem? here) queued

theorem psocTriggerTrans {i : Nat}
    (others : driver.trans.queued = false → ∀ k psoc, k ≠ i →
      driver.psocs[k]? = some psoc → psoc.Attended false) :
    (driver.psocTriggerTrans i).Attended := by
  rcases driver.psocTriggerTrans_cases i with
    ⟨queued, result⟩ | ⟨queued, waits, result⟩ | ⟨queued, _, result⟩
  · rw [result]
    refine attended_of_not_queued queued fun psoc member => ?_
    obtain ⟨k, found⟩ := List.mem_iff_getElem?.1 member
    simp only [Driver.editPsoc, List.getElem?_modify] at found
    by_cases same : i = k
    · subst same
      obtain ⟨before, _, rfl⟩ := by simpa using found
      exact before.triggerTree_attended false
    · exact others queued k psoc (Ne.symm same) (by simpa [same] using found)
  · rw [result]
    exact attended_of_canTrigger_false queued waits
  · rw [result]
    exact trigger_attended queued

theorem psocTransStop (attended : driver.Attended) (exclusive : driver.Exclusive)
    {i : Nat} {psoc : Psoc} (found : driver.psocs[i]? = some psoc)
    (kept : psoc.trans.active = false → driver.trans.queued = false →
      ∀ k other, k ≠ i → driver.psocs[k]? = some other →
        other.trans.queued = false ∧
          ∀ vdev ∈ other.vdevs, vdev.trans.queued = false) :
    (driver.psocTransStop i).Attended := by
  unfold Driver.psocTransStop
  simp only [found]
  split
  next active =>
    refine psocTriggerTrans fun queued k other apart there => ?_
    have inactive := exclusive.inactive_of_busy (List.mem_of_getElem? found)
      (by simp [Psoc.busy, active])
    have place : driver.psocs[k]? = some other := by
      simpa [edit, Driver.editPsoc, List.getElem?_modify, apart.symm] using there
    exact attended.psocs_false (by simp_all [Trans.activeOrQueued, edit, Driver.editPsoc])
      other (List.mem_of_getElem? place)
  next idle =>
    refine psocTriggerTrans fun queued k other apart there => ?_
    obtain ⟨own, below⟩ := kept (by simpa using idle) queued k other apart there
    exact Psoc.attended_of_not_queued own
      (fun vdev member waits => by simp [below vdev member] at waits) false

theorem vdevTransStop (attended : driver.Attended) (exclusive : driver.Exclusive)
    {i j : Nat} {psoc : Psoc} {vdev : Node} (found : driver.psocs[i]? = some psoc)
    (here : psoc.vdevs[j]? = some vdev) (active : vdev.trans.active = true) :
    (driver.vdevTransStop i j).Attended := by
  have busy : psoc.busy = true := by
    simp only [Psoc.busy, Psoc.transActiveDownTree, Bool.or_eq_true, List.any_eq_true]
    exact .inr ⟨vdev, List.mem_of_getElem? here, active⟩
  have inactive := exclusive.inactive_of_busy (List.mem_of_getElem? found) busy
  have place : (driver.edit (.vdev i j) Node.stop).psocs[i]? =
      some { psoc with vdevs := psoc.vdevs.modify j Node.stop } := by
    simp [edit, Driver.editPsoc, found]
  -- what is left to show when the driver has nothing queued
  have rest : ∀ change : Psoc → Psoc, driver.trans.queued = false →
      (psoc.Attended false → (change psoc).Attended false) →
      (driver.editPsoc i change).Attended := by
    intro change queued changed
    refine attended.editPsoc (by simp [Trans.activeOrQueued, inactive, queued])
      fun other there keep => ?_
    rw [found] at there
    cases there
    exact changed keep
  unfold Driver.vdevTransStop
  rcases vdevTriggerTrans_cases _ j place with
    ⟨queued, waits, result⟩ | ⟨queued, _, result⟩ | ⟨queued, above, waits, result⟩ |
      ⟨queued, above, _, result⟩ | ⟨queued, above, result⟩
  · rw [result]
    exact attended_of_canTrigger_false queued waits
  · rw [result]
    exact trigger_attended queued
  · rw [result]
    refine rest _ queued fun _ => ?_
    refine Psoc.attended_of_busy above ?_ false
    have idle : driver.trans.activeOrQueued = false := by
      simp only [Trans.activeOrQueued, inactive, Bool.false_or]
      exact queued
    simpa [psocCanTrigger, edit, Driver.editPsoc, idle, Psoc.busy,
      or_iff_not_imp_left] using waits
  · rw [result]
    have twice : (driver.edit (.vdev i j) Node.stop).edit (.psoc i) Node.trigger =
        driver.editPsoc i fun other =>
          { other with
            toNode := other.toNode.trigger
            vdevs := other.vdevs.modify j Node.stop } := by
      simp [edit, Driver.editPsoc, List.modify_modify_eq, Function.comp_def]
    rw [twice]
    exact rest _ queued fun _ => Psoc.attended_of_active (by simp_all) false
  · rw [result]
    have twice : (driver.edit (.vdev i j) Node.stop).edit (.vdev i j) Node.trigger =
        driver.editPsoc i fun other =>
          { other with
            vdevs := other.vdevs.modify j fun here => here.stop.trigger } := by
      simp [edit, Driver.editPsoc, List.modify_modify_eq, Function.comp_def]
    rw [twice]
    refine rest _ queued fun keep => ?_
    have unqueued : psoc.trans.queued = false := above
    refine Psoc.attended_of_not_queued ?_ (fun other member waits => ?_) false
    · exact unqueued
    rcases mem_modify member with old | ⟨before, _, rfl⟩
    · have quiet : psoc.trans.active = false := by
        by_contra active'
        have idle := (exclusive.psocs psoc (List.mem_of_getElem? found)).below
          (by simpa using active') vdev (List.mem_of_getElem? here)
        simp [idle] at active
      simpa [Trans.activeOrQueued, quiet, unqueued] using keep.vdevs other old waits
    · exact Trans.active_of_trigger_queued waits

end Attended

theorem Attended.path {driver : Driver} (attended : driver.Attended) {node : NodeId}
    (queued : driver.QueuedAt node) :
    ∃ waiting, waiting.Covers node ∧ driver.QueuedAt waiting ∧
      ∃ other, waiting.Related other ∧ driver.ActiveAt other := by
  have top : driver.trans.activeOrQueued = true →
      ∃ waiting, waiting.Covers node ∧ driver.QueuedAt waiting ∧
        ∃ other, waiting.Related other ∧ driver.ActiveAt other := by
    intro above
    by_cases active : driver.trans.active = true
    · exact ⟨node, node.covers_refl, queued, .driver, .inr node.driver_covers,
        driver.toNode, rfl, active⟩
    · have waits : driver.trans.queued = true := by
        simpa [Trans.activeOrQueued, active] using above
      obtain ⟨other, held⟩ := exists_activeAt
        ((attended.own waits).resolve_left active)
      exact ⟨.driver, node.driver_covers, ⟨_, rfl, waits⟩, other,
        .inl other.driver_covers, held⟩
  obtain ⟨found, there, waits⟩ := queued
  cases node with
  | driver =>
    cases there
    exact top (by simp [Trans.activeOrQueued, waits])
  | psoc i =>
    obtain ⟨psoc, place, rfl⟩ : ∃ psoc, driver.psocs[i]? = some psoc ∧
        psoc.toNode = found := by simpa [node?] using there
    rcases (attended.psocs psoc (List.mem_of_getElem? place)).own waits with
      above | busy
    · exact top above
    · obtain ⟨other, covers, held⟩ := exists_activeAt_of_busy place busy
      exact ⟨.psoc i, NodeId.covers_refl _, ⟨_, there, waits⟩, other, .inl covers,
        held⟩
  | vdev i j =>
    obtain ⟨psoc, place, within⟩ : ∃ psoc, driver.psocs[i]? = some psoc ∧
        psoc.vdevs[j]? = some found := by
      simpa [node?, Option.bind_eq_some_iff] using there
    have keep := attended.psocs psoc (List.mem_of_getElem? place)
    have psocAt : driver.node? (.psoc i) = some psoc.toNode := by simp [node?, place]
    have above : (NodeId.psoc i).Covers (.vdev i j) := .inr rfl
    rcases keep.vdevs found (List.mem_of_getElem? within) waits with
      higher | higher | active
    · exact top higher
    · by_cases active : psoc.trans.active = true
      · exact ⟨.vdev i j, NodeId.covers_refl _, ⟨_, there, waits⟩, .psoc i,
          .inr above, _, psocAt, active⟩
      · have behind : psoc.trans.queued = true := by
          simpa [Trans.activeOrQueued, active] using higher
        rcases keep.own behind with higher | busy
        · exact top higher
        · obtain ⟨other, covers, held⟩ := exists_activeAt_of_busy place busy
          exact ⟨.psoc i, above, ⟨_, psocAt, behind⟩, other, .inl covers, held⟩
    · exact ⟨.vdev i j, NodeId.covers_refl _, ⟨_, there, waits⟩, .vdev i j,
        .inl (NodeId.covers_refl _), found, there, active⟩

end Driver

namespace World

/-- A psoc stop that ends the driver's transition while nothing waits for the driver
and something waits outside the psoc's subtree. -/
def Strands (world : World) : Move → Prop
  | .transStop (.psoc i) =>
    ¬world.driver.ActiveAt (.psoc i) ∧ ¬world.driver.QueuedAt .driver ∧
      ∃ k node, k ≠ i ∧ (NodeId.psoc k).Covers node ∧ world.driver.QueuedAt node
  | _ => False

def KeptStep (world next : World) : Prop :=
  ∃ move, world.Allowed move ∧ ¬world.Strands move ∧ next = world.apply move

theorem Fresh.attended {world : World} (fresh : world.Fresh) :
    world.driver.Attended := by
  have top : world.driver.toNode = .init := fresh.node?_eq
    (show world.driver.node? .driver = some world.driver.toNode from rfl)
  have idle : world.driver.trans.queued = false := by
    rw [top]
    rfl
  refine Driver.attended_of_not_queued idle fun psoc member => ?_
  obtain ⟨here, below⟩ := fresh.psoc_eq member
  refine Psoc.attended_of_not_queued ?_ (fun vdev within waits => ?_) false
  · rw [here]
    rfl
  · rw [below vdev within] at waits
    cases waits

theorem not_queued_of_not_strands {world : World} {i : Nat}
    (kept : ¬world.Strands (.transStop (.psoc i)))
    (idle : ¬world.driver.ActiveAt (.psoc i))
    (empty : world.driver.trans.queued = false) {k : Nat} {psoc : Psoc} (apart : k ≠ i)
    (found : world.driver.psocs[k]? = some psoc) :
    psoc.trans.queued = false ∧ ∀ vdev ∈ psoc.vdevs, vdev.trans.queued = false := by
  have none : ∀ node here, (NodeId.psoc k).Covers node →
      world.driver.node? node = some here → here.trans.queued = false := by
    intro node here covers there
    by_contra waits
    refine kept ⟨idle, ?_, k, node, apart, covers, here, there, by simpa using waits⟩
    rintro ⟨top, place, queued⟩
    cases place
    simp [empty] at queued
  refine ⟨none (.psoc k) psoc.toNode (NodeId.covers_refl _) (by simp [Driver.node?, found]),
    fun vdev member => ?_⟩
  obtain ⟨j, here⟩ := List.mem_iff_getElem?.1 member
  exact none (.vdev k j) vdev (.inr rfl) (by simp [Driver.node?, found, here])

theorem psocTransStop_strands {driver : Driver} (exclusive : driver.Exclusive)
    (active : driver.trans.active = true) (empty : driver.trans.queued = false)
    {i k : Nat} {psoc : Psoc} {node : NodeId} (there : driver.psocs[i]? = some psoc)
    (apart : k ≠ i) (covers : (NodeId.psoc k).Covers node)
    (queued : driver.QueuedAt node) :
    (driver.psocTransStop i).QueuedAt node ∧
      ∀ other, node.Related other → ¬(driver.psocTransStop i).ActiveAt other := by
  have idle : psoc.trans.active = false := (Psoc.busy_eq_false.1
    (Driver.transActiveDownTree_eq_false.1 (exclusive.below active) psoc
      (List.mem_of_getElem? there))).1
  have result : driver.psocTransStop i =
      (driver.edit .driver Node.stop).editPsoc i Psoc.triggerTree := by
    unfold Driver.psocTransStop
    simp only [there, idle]
    rcases (driver.edit .driver Node.stop).psocTriggerTrans_cases i with
      ⟨_, done⟩ | ⟨waits, _, _⟩ | ⟨waits, _, _⟩
    · exact done
    · simp [Driver.edit, empty] at waits
    · simp [Driver.edit, empty] at waits
  have frame : ∀ below, (NodeId.psoc k).Covers below →
      (driver.psocTransStop i).node? below = driver.node? below := by
    intro below within
    rw [result]
    rcases NodeId.psoc_covers.1 within with rfl | ⟨j, rfl⟩ <;>
      simp [Driver.node?, Driver.edit, Driver.editPsoc, apart.symm]
  refine ⟨?_, fun other related held => ?_⟩
  · obtain ⟨found, place, waits⟩ := queued
    exact ⟨found, (frame node covers).trans place, waits⟩
  · by_cases top : other = .driver
    · subst top
      obtain ⟨found, place, still⟩ := held
      rw [result] at place
      cases place
      cases still
    · -- everything else on the path lies in the psoc's subtree, which was quiet before
      have within := NodeId.covers_of_related covers related top
      obtain ⟨found, place, still⟩ := held
      rw [frame other within] at place
      have above : NodeId.driver.Above other :=
        other.driver_covers.resolve_left (Ne.symm top)
      exact exclusive.not_active_below above ⟨_, rfl, active⟩ ⟨found, place, still⟩

theorem transStop_attended {world : World} (attended : world.driver.Attended)
    (exclusive : world.driver.Exclusive) {node : NodeId}
    (allowed : world.Allowed (.transStop node))
    (kept : ¬world.Strands (.transStop node)) :
    (transStop world.driver node).Attended := by
  obtain ⟨valid, owned, _⟩ := allowed
  cases node with
  | driver => exact Driver.Attended.transStop world.driver
  | psoc i =>
    obtain ⟨psoc, found⟩ : ∃ psoc, world.driver.psocs[i]? = some psoc := by
      simpa [Driver.node?, Option.isSome_iff_exists] using valid
    refine attended.psocTransStop exclusive found fun inactive empty k other apart there =>
      not_queued_of_not_strands kept ?_ empty apart there
    rintro ⟨here, place, active⟩
    obtain rfl : psoc.toNode = here := by simpa [Driver.node?, found] using place
    simp [inactive] at active
  | vdev i j =>
    obtain ⟨vdev, there, active⟩ := owned
    obtain ⟨psoc, found, here⟩ : ∃ psoc, world.driver.psocs[i]? = some psoc ∧
        psoc.vdevs[j]? = some vdev := by
      simpa [stopTarget, Driver.node?, Option.bind_eq_some_iff] using there
    exact attended.vdevTransStop exclusive found here active

theorem editOps_attended {driver : Driver} (attended : driver.Attended) (node : NodeId)
    (change : Node → Node) (same : ∀ here, (change here).trans = here.trans) :
    (driver.edit node change).Attended := by
  cases node with
  | driver =>
    have trans : (driver.edit .driver change).trans = driver.trans := same driver.toNode
    refine ⟨fun waits => ?_, fun psoc member => ?_⟩
    · rw [trans] at waits ⊢
      exact attended.own waits
    · rw [trans]
      exact attended.psocs psoc member
  | psoc i =>
    refine ⟨fun waits => ?_, fun psoc member => ?_⟩
    · refine (attended.own waits).imp_right fun busy => ?_
      exact (any_modify driver.psocs i fun psoc => by
        simp [Psoc.busy, Psoc.transActiveDownTree, same]).trans busy
    · rcases mem_modify member with old | ⟨before, there, rfl⟩
      · exact attended.psocs psoc old
      · have keep := attended.psocs before (List.mem_of_getElem? there)
        have trans : (driver.edit (.psoc i) change).trans = driver.trans := rfl
        rw [trans]
        refine ⟨fun waits => ?_, fun vdev below waits => ?_⟩
        · rw [same] at waits
          simpa [Psoc.busy, Psoc.transActiveDownTree, same] using keep.own waits
        · simpa [same] using keep.vdevs vdev below waits
  | vdev i j =>
    have calm : ∀ psoc : Psoc,
        Psoc.busy { psoc with vdevs := psoc.vdevs.modify j change } = psoc.busy :=
      fun psoc => psoc.busy_editVdev j change fun vdev => by rw [same]
    refine ⟨fun waits => ?_, fun psoc member => ?_⟩
    · refine (attended.own waits).imp_right fun busy => ?_
      exact (any_modify driver.psocs i calm).trans busy
    · rcases mem_modify member with old | ⟨before, there, rfl⟩
      · exact attended.psocs psoc old
      · have keep := attended.psocs before (List.mem_of_getElem? there)
        refine ⟨fun waits => ?_, fun vdev below waits => ?_⟩
        · rw [calm]
          exact keep.own waits
        · rcases mem_modify below with old | ⟨first, place, rfl⟩
          · exact keep.vdevs vdev old waits
          · rw [same] at waits ⊢
            exact keep.vdevs first (List.mem_of_getElem? place) waits

theorem sampleOps_attended {driver : Driver} (attended : driver.Attended)
    (node : NodeId) : (driver.sampleOps node).2.Attended := by
  unfold Driver.sampleOps
  cases driver.node? node with
  | none => exact attended
  | some found =>
    simp only
    split
    · exact editOps_attended attended _ _ fun _ => rfl
    · exact attended

theorem apply_attended {world : World} {move : Move} (attended : world.driver.Attended)
    (exclusive : world.driver.Exclusive) (allowed : world.Allowed move)
    (kept : ¬world.Strands move) : (world.apply move).driver.Attended := by
  cases move with
  | transStart platform node desc =>
    cases node with
    | driver => exact attended.transStart desc
    | psoc i => exact attended.psocTransStart i desc
    | vdev i j => exact attended.vdevTransStart platform i j desc
  | transStartWait platform node desc =>
    cases node with
    | driver => exact attended.transStartWait desc
    | psoc i => exact attended.psocTransStartWait i desc
    | vdev i j => exact attended.vdevTransStartWait platform i j desc
  | transStop node => exact transStop_attended attended exclusive allowed kept
  | opStart platform node =>
    change (world.driver.opStart platform node).2.Attended
    unfold Driver.opStart
    split
    · exact editOps_attended attended _ _ fun _ => rfl
    · exact attended
  | opStop node => exact editOps_attended attended _ _ fun _ => rfl
  | waitForOps node => exact attended
  | sample node =>
    change (world.sampleNext node).driver.Attended
    unfold sampleNext
    split
    · exact attended
    · exact sampleOps_attended attended _
    · exact attended
  | wake node =>
    change (world.wakeUp node).driver.Attended
    unfold wakeUp
    split <;> exact attended
  | otherSample node => exact sampleOps_attended attended node

theorem attended_of_reachable {world : World} (reached : Reachable Fresh KeptStep world) :
    world.driver.Attended := by
  have start : ∀ world : World, world.Fresh →
      world.driver.Exclusive ∧ world.driver.Attended :=
    fun _ fresh => ⟨fresh.exclusive, fresh.attended⟩
  refine (reached.invariant start ?_).2
  rintro before after ⟨exclusive, attended⟩ ⟨move, allowed, kept, rfl⟩
  exact ⟨apply_exclusive exclusive allowed,
    apply_attended attended exclusive allowed kept⟩

/-- Whoever waits has, on its own node or on a node above it where somebody waits too,
an active transition on the same path; with nothing active nobody waits. -/
theorem queuedAt_attended_of_reachable {world : World}
    (reached : Reachable Fresh KeptStep world) :
    (∀ node, world.driver.QueuedAt node →
      ∃ waiting, waiting.Covers node ∧ world.driver.QueuedAt waiting ∧
        ∃ other, waiting.Related other ∧ world.driver.ActiveAt other) ∧
    ((∀ node, ¬world.driver.ActiveAt node) → ∀ node, ¬world.driver.QueuedAt node) := by
  have attended := attended_of_reachable reached
  refine ⟨fun node queued => attended.path queued, fun idle node queued => ?_⟩
  obtain ⟨_, _, _, other, _, active⟩ := attended.path queued
  exact idle other active

theorem queueWorld_keptReachable : Reachable Fresh KeptStep queueWorld := by
  refine run_reachable (.start ⟨_, rfl⟩) (fun before move member allowed => ?_) _
  refine ⟨move, allowed, ?_, rfl⟩
  simp only [queueMoves, List.mem_cons, List.not_mem_nil, or_false] at member
  rcases member with rfl | rfl | rfl | rfl | rfl | rfl <;> exact id

theorem queueWorld_queuedAt_attended :
    (∀ node, queueWorld.driver.QueuedAt node →
      ∃ waiting, waiting.Covers node ∧ queueWorld.driver.QueuedAt waiting ∧
        ∃ other, waiting.Related other ∧ queueWorld.driver.ActiveAt other) ∧
    ((∀ node, ¬queueWorld.driver.ActiveAt node) →
      ∀ node, ¬queueWorld.driver.QueuedAt node) :=
  queuedAt_attended_of_reachable queueWorld_keptReachable

/-- There the first vdev waits for the driver, which waits for the second vdev: nothing
on the first vdev's own path is active. -/
theorem not_queuedAt_related_active :
    ¬∀ world : World, Reachable Fresh Step world → ∀ node, world.driver.QueuedAt node →
      ∃ other, node.Related other ∧ world.driver.ActiveAt other := by
  intro all
  have waits : queueWorld.driver.QueuedAt (.vdev 0 0) := by decide +kernel
  obtain ⟨other, related, active⟩ := all queueWorld queueWorld_reachable _ waits
  have idle : ¬queueWorld.driver.ActiveAt .driver ∧
      ¬queueWorld.driver.ActiveAt (.psoc 0) ∧
        ¬queueWorld.driver.ActiveAt (.vdev 0 0) := by decide +kernel
  rcases NodeId.vdev_related.1 related with rfl | rfl | rfl
  · exact idle.1 active
  · exact idle.2.1 active
  · exact idle.2.2 active

end World

end VendorModules.Dsc
