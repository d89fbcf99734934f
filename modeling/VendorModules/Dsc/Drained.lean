import VendorModules.Dsc.Exclusive

namespace VendorModules.Dsc

open Lib

/-- From one tree to the next no operation starts or stops, and no transition ends but
those on the nodes of `ended`. -/
def Driver.Advances (ended : Set NodeId) (driver next : Driver) : Prop :=
  ∀ node, ∃ change : Node → Node,
    next.node? node = (driver.node? node).map change ∧
      (∀ here, (change here).ops = here.ops) ∧
        (node ∉ ended → ∀ here, here.trans.active = true →
          (change here).trans.active = true)

namespace Driver.Advances

variable {ended : Set NodeId} {driver next last : Driver}

theorem refl (driver : Driver) : Driver.Advances ended driver driver := fun _ =>
  ⟨id, by simp, fun _ => rfl, fun _ _ active => active⟩

theorem trans (first : Driver.Advances ended driver next)
    (second : Driver.Advances ∅ next last) : Driver.Advances ended driver last := by
  intro node
  obtain ⟨change, found, ops, active⟩ := first node
  obtain ⟨again, found', ops', active'⟩ := second node
  refine ⟨again ∘ change, ?_, fun here => (ops' _).trans (ops here), ?_⟩
  · rw [found', found, Option.map_map]
  · intro kept here held
    exact active' (Set.notMem_empty node) _ (active kept here held)

/-- A change of one node that leaves its operations alone, and its activity too unless
the node is in `ended`. -/
theorem edit (driver : Driver) (node : NodeId) (change : Node → Node)
    (ops : ∀ here, (change here).ops = here.ops)
    (active : node ∉ ended → ∀ here, here.trans.active = true →
      (change here).trans.active = true) :
    Driver.Advances ended driver (driver.edit node change) := by
  intro other
  by_cases same : node = other
  · subst same
    exact ⟨change, by simp, ops, active⟩
  · exact ⟨id, by simp [node?_edit, same], fun _ => rfl, fun _ _ held => held⟩

theorem trigger (driver : Driver) (node : NodeId) :
    Driver.Advances ∅ driver (driver.edit node Node.trigger) :=
  edit driver node Node.trigger (fun _ => rfl) fun _ here held => by simp [held]

theorem start (driver : Driver) (node : NodeId) (desc : String) :
    Driver.Advances ∅ driver (driver.edit node (Node.start desc)) :=
  edit driver node _ (fun _ => rfl) fun _ _ _ => rfl

theorem enqueue (driver : Driver) (node : NodeId) (desc : String) :
    Driver.Advances ∅ driver (driver.edit node (Node.enqueue desc)) :=
  edit driver node _ (fun _ => rfl) fun _ _ held => held

theorem stop (driver : Driver) (node : NodeId) :
    Driver.Advances {node} driver (driver.edit node Node.stop) :=
  edit driver node _ (fun _ => rfl) fun kept => absurd rfl kept

theorem triggerTree_toNode (psoc : Psoc) :
    psoc.triggerTree.toNode = psoc.toNode.trigger := by
  unfold Psoc.triggerTree
  split
  · rfl
  next idle =>
    have same := @Trans.trigger_of_not_queued psoc.trans (by simpa using idle)
    simp [Node.trigger, same]

theorem triggerTrees (driver : Driver) {psocs : List Psoc}
    (each : ∀ i : Nat, psocs[i]? = driver.psocs[i]? ∨
      psocs[i]? = driver.psocs[i]?.map Psoc.triggerTree) :
    Driver.Advances ∅ driver { driver with psocs := psocs } := by
  intro node
  cases node with
  | driver => exact ⟨id, rfl, fun _ => rfl, fun _ _ held => held⟩
  | psoc i =>
    rcases each i with same | changed
    · exact ⟨id, by simp [node?, same], fun _ => rfl, fun _ _ held => held⟩
    · refine ⟨Node.trigger, ?_, fun _ => rfl, fun _ _ held => by simp [held]⟩
      simp [node?, changed, Function.comp_def, triggerTree_toNode]
  | vdev i j =>
    rcases each i with same | changed
    · exact ⟨id, by simp [node?, same], fun _ => rfl, fun _ _ held => held⟩
    · by_cases queued : (driver.psocs[i]?.any fun psoc => psoc.trans.queued) = true
      · refine ⟨id, ?_, fun _ => rfl, fun _ _ held => held⟩
        cases found : driver.psocs[i]? <;>
          simp_all [node?, Psoc.triggerTree]
      · refine ⟨Node.trigger, ?_, fun _ => rfl, fun _ _ held => by simp [held]⟩
        cases found : driver.psocs[i]? <;>
          simp_all [node?, Psoc.triggerTree]

theorem triggerTrans (driver : Driver) :
    Driver.Advances ∅ driver driver.triggerTrans := by
  rcases driver.triggerTrans_cases with ⟨_, result⟩ | ⟨_, result⟩
  · rw [result]
    exact trigger driver .driver
  · rw [result]
    exact triggerTrees driver fun i => .inr (by simp)

theorem psocTriggerTrans (driver : Driver) (i : Nat) :
    Driver.Advances ∅ driver (driver.psocTriggerTrans i) := by
  rcases driver.psocTriggerTrans_cases i with
    ⟨_, result⟩ | ⟨_, _, result⟩ | ⟨_, _, result⟩
  · rw [result]
    refine triggerTrees driver fun k => ?_
    by_cases same : i = k
    · subst same
      exact .inr (by simp)
    · exact .inl (by simp [same])
  · rw [result]
    exact refl driver
  · rw [result]
    exact trigger driver .driver

theorem vdevTriggerTrans (driver : Driver) {i : Nat} (j : Nat) {psoc : Psoc}
    (found : driver.psocs[i]? = some psoc) :
    Driver.Advances ∅ driver (driver.vdevTriggerTrans i j) := by
  rcases driver.vdevTriggerTrans_cases j found with
    ⟨_, _, result⟩ | ⟨_, _, result⟩ | ⟨_, _, _, result⟩ |
      ⟨_, _, _, result⟩ | ⟨_, _, result⟩
  · rw [result]
    exact refl driver
  · rw [result]
    exact trigger driver _
  · rw [result]
    exact refl driver
  · rw [result]
    exact trigger driver _
  · rw [result]
    exact trigger driver _

end Driver.Advances

namespace World

theorem transStart_advances (driver : Driver) (platform : Platform) (desc : String)
    (node : NodeId) :
    Driver.Advances ∅ driver (transStart driver platform desc node).2 := by
  cases node with
  | driver =>
    change Driver.Advances ∅ driver (driver.transStart desc).2
    rcases driver.transStart_cases desc with ⟨_, result⟩ | ⟨_, result⟩
    · rw [result]
      exact .start driver _ desc
    · rw [result]
      exact .refl driver
  | psoc i =>
    change Driver.Advances ∅ driver (driver.psocTransStart i desc).2
    rcases driver.psocTransStart_cases i desc with
      ⟨_, _, _, result⟩ | result | ⟨_, _, _, result⟩
    · rw [result]
      exact .start driver _ desc
    · rw [result]
      exact .refl driver
    · rw [result]
      exact .refl driver
  | vdev i j =>
    change Driver.Advances ∅ driver (driver.vdevTransStart platform i j desc).2
    rcases driver.vdevTransStart_cases platform i j desc with
      ⟨_, _, _, _, _, result⟩ | result | ⟨_, _, _, _, _, result⟩
    · rw [result]
      exact .start driver _ desc
    · rw [result]
      exact .refl driver
    · rw [result]
      exact .refl driver

theorem transStartWait_advances (driver : Driver) (platform : Platform) (desc : String)
    (node : NodeId) :
    Driver.Advances ∅ driver (transStartWait driver platform desc node).2 := by
  cases node with
  | driver =>
    change Driver.Advances ∅ driver (driver.transStartWait desc).2
    rcases driver.transStartWait_cases desc with ⟨_, result⟩ | ⟨_, result⟩
    · rw [result]
      exact .start driver _ desc
    · rw [result]
      exact .enqueue driver _ desc
  | psoc i =>
    change Driver.Advances ∅ driver (driver.psocTransStartWait i desc).2
    rcases driver.psocTransStartWait_cases i desc with
      ⟨_, _, _, result⟩ | result | ⟨_, _, _, result⟩
    · rw [result]
      exact .start driver _ desc
    · rw [result]
      exact .refl driver
    · rw [result]
      exact .enqueue driver _ desc
  | vdev i j =>
    change Driver.Advances ∅ driver (driver.vdevTransStartWait platform i j desc).2
    rcases driver.vdevTransStartWait_cases platform i j desc with
      ⟨_, _, _, _, _, result⟩ | result | ⟨_, _, _, _, _, result⟩
    · rw [result]
      exact .start driver _ desc
    · rw [result]
      exact .refl driver
    · rw [result]
      exact .enqueue driver _ desc

theorem transStop_advances (driver : Driver) {node : NodeId}
    (valid : (driver.node? node).isSome) :
    Driver.Advances {stopTarget driver node} driver (transStop driver node) := by
  cases node with
  | driver =>
    exact (Driver.Advances.stop driver _).trans (.triggerTrans _)
  | psoc i =>
    change Driver.Advances _ driver (driver.psocTransStop i)
    unfold Driver.psocTransStop
    cases found : driver.psocs[i]? with
    | none => exact .refl driver
    | some psoc =>
      have here : driver.ActiveAt (.psoc i) ↔ psoc.trans.active = true := by
        simp [Driver.ActiveAt, Driver.node?, found]
      simp only [stopTarget, here]
      split
      · exact (Driver.Advances.stop driver _).trans (.psocTriggerTrans _ i)
      · exact (Driver.Advances.stop driver _).trans (.psocTriggerTrans _ i)
  | vdev i j =>
    obtain ⟨psoc, found⟩ : ∃ psoc, driver.psocs[i]? = some psoc := by
      cases found : driver.psocs[i]? with
      | none => simp [Driver.node?, found] at valid
      | some psoc => exact ⟨psoc, rfl⟩
    have place : (driver.edit (.vdev i j) Node.stop).psocs[i]? =
        some { psoc with vdevs := psoc.vdevs.modify j Node.stop } := by
      simp [Driver.edit, Driver.editPsoc, found]
    exact (Driver.Advances.stop driver _).trans (.vdevTriggerTrans _ j place)

end World

namespace Driver

variable {driver : Driver}

theorem activeAt_of_advances {ended : Set NodeId} {next : Driver} {node : NodeId}
    (advances : Driver.Advances ended driver next) (kept : node ∉ ended)
    (active : driver.ActiveAt node) : next.ActiveAt node := by
  obtain ⟨change, found, _, still⟩ := advances node
  obtain ⟨here, there, held⟩ := active
  exact ⟨change here, by simp [found, there], still kept here held⟩

theorem activeAt_edit {node other : NodeId} {change : Node → Node}
    (same : ∀ here, (change here).trans = here.trans) (active : driver.ActiveAt other) :
    (driver.edit node change).ActiveAt other := by
  obtain ⟨found, there, held⟩ := active
  by_cases here : node = other
  · subst here
    exact ⟨change found, by simp [there], by rwa [same]⟩
  · exact ⟨found, by rwa [node?_edit_other driver change here], held⟩

theorem not_activeAt_of_canOp {platform : Platform} {node above : NodeId}
    (can : driver.canOp platform node = .success) (covers : above.Covers node) :
    ¬driver.ActiveAt above := by
  rintro ⟨found, there, active⟩
  cases node with
  | driver =>
    obtain rfl : above = .driver := by
      cases above <;> simp_all [NodeId.Covers, NodeId.Above]
    cases there
    have free : driver.canTrans = true := by
      by_contra refused
      simp [canOp, refused] at can
    simp [(canTrans_true free).1] at active
  | psoc i =>
    unfold canOp at can
    cases place : driver.psocs[i]? with
    | none => simp [place] at can
    | some psoc =>
      simp only [place] at can
      obtain ⟨inactive, idle⟩ := psocCanTrans_success can
      cases above with
      | driver =>
        cases there
        simp [inactive] at active
      | psoc k =>
        obtain rfl : k = i := by simpa [NodeId.Covers, NodeId.Above] using covers
        obtain rfl : psoc.toNode = found := by simpa [node?, place] using there
        simp [(Psoc.busy_eq_false.1 idle).1] at active
      | vdev k l => simp [NodeId.Covers, NodeId.Above] at covers
  | vdev i j =>
    unfold canOp at can
    cases place : driver.psocs[i]? with
    | none => simp [place] at can
    | some psoc =>
      simp only [place] at can
      cases within : psoc.vdevs[j]? with
      | none => simp [within] at can
      | some vdev =>
        simp only [within] at can
        obtain ⟨inactive, idle, own⟩ := vdevCanTrans_success can
        cases above with
        | driver =>
          cases there
          simp [inactive] at active
        | psoc k =>
          obtain rfl : k = i := by
            simpa [NodeId.Covers, NodeId.Above] using covers
          obtain rfl : psoc.toNode = found := by simpa [node?, place] using there
          simp [Trans.activeOrQueued, active] at idle
        | vdev k l =>
          obtain ⟨rfl, rfl⟩ : k = i ∧ l = j := by
            simpa [NodeId.Covers, NodeId.Above] using covers
          obtain rfl : vdev = found := by simpa [node?, place, within] using there
          simp [own] at active

theorem covers_of_mem_psocWaitList {i : Nat} {below : NodeId}
    (member : below ∈ driver.psocWaitList i) : (NodeId.psoc i).Covers below := by
  simp only [psocWaitList, List.mem_cons, List.mem_map] at member
  rcases member with rfl | ⟨j, _, rfl⟩
  · exact NodeId.covers_refl _
  · exact .inr rfl

theorem covers_of_mem_waitList {node below : NodeId}
    (member : below ∈ driver.waitList node) : node.Covers below := by
  cases node with
  | driver => exact below.driver_covers
  | psoc i => exact covers_of_mem_psocWaitList member
  | vdev i j => simpa [waitList, NodeId.vdev_covers] using member

theorem mem_psocWaitList {i : Nat} {below : NodeId} {found : Node}
    (covers : (NodeId.psoc i).Covers below) (there : driver.node? below = some found) :
    below ∈ driver.psocWaitList i := by
  rcases NodeId.psoc_covers.1 covers with rfl | ⟨j, rfl⟩
  · exact List.mem_cons_self
  · obtain ⟨psoc, place, within⟩ : ∃ psoc, driver.psocs[i]? = some psoc ∧
        psoc.vdevs[j]? = some found := by
      simpa [node?, Option.bind_eq_some_iff] using there
    have bound : j < psoc.vdevs.length := (List.getElem?_eq_some_iff.1 within).1
    simp [psocWaitList, place, bound]

theorem mem_waitList {node below : NodeId} {found : Node} (covers : node.Covers below)
    (there : driver.node? below = some found) : below ∈ driver.waitList node := by
  cases node with
  | driver =>
    have inPsoc : ∀ i, (NodeId.psoc i).Covers below →
        (∃ psoc, driver.psocs[i]? = some psoc) →
          below ∈ driver.waitList .driver := by
      rintro i within ⟨psoc, place⟩
      refine List.mem_cons_of_mem _ (List.mem_flatMap.2 ⟨i, ?_, ?_⟩)
      · exact List.mem_range.2 (List.getElem?_eq_some_iff.1 place).1
      · exact mem_psocWaitList within there
    cases below with
    | driver => exact List.mem_cons_self
    | psoc i =>
      obtain ⟨psoc, place, _⟩ : ∃ psoc, driver.psocs[i]? = some psoc ∧
          psoc.toNode = found := by simpa [node?] using there
      exact inPsoc i (NodeId.covers_refl _) ⟨psoc, place⟩
    | vdev i j =>
      obtain ⟨psoc, place, _⟩ : ∃ psoc, driver.psocs[i]? = some psoc ∧
          psoc.vdevs[j]? = some found := by
        simpa [node?, Option.bind_eq_some_iff] using there
      exact inPsoc i (.inr rfl) ⟨psoc, place⟩
  | psoc i => exact mem_psocWaitList covers there
  | vdev i j => simp [waitList, NodeId.vdev_covers.1 covers]

end Driver

/-- Where an owner's wait has come past a node, nothing is in flight there any more; and
when the event it is blocked on is set, nothing is in flight on that node either. -/
structure World.Drained (world : World) : Prop where
  owned : ∀ node, world.flush node ≠ .idle → world.driver.ActiveAt node
  inside : ∀ node, ∀ below ∈ (world.flush node).pending, node.Covers below
  quiet : ∀ node below found, world.flush node ≠ .idle → node.Covers below →
    below ∉ (world.flush node).pending → world.driver.node? below = some found →
      found.ops.count = 0
  signalled : ∀ node here todo found, world.flush node = .blocked here todo →
    world.driver.node? here = some found → found.ops.event = true →
      found.ops.count = 0

namespace World.Drained

variable {world : World}

theorem advance (drained : world.Drained) {ended : Set NodeId} {next : Driver}
    {flush : NodeId → Flush} (advances : Driver.Advances ended world.driver next)
    (finished : ∀ node ∈ ended, flush node = .idle)
    (same : ∀ node ∉ ended, flush node = world.flush node) :
    World.Drained { driver := next, flush := flush } := by
  have kept : ∀ node, flush node ≠ .idle →
      node ∉ ended ∧ flush node = world.flush node := by
    intro node running
    by_cases here : node ∈ ended
    · exact absurd (finished node here) running
    · exact ⟨here, same node here⟩
  have before : ∀ node found, next.node? node = some found →
      ∃ old, world.driver.node? node = some old ∧ found.ops = old.ops := by
    intro node found there
    obtain ⟨change, place, ops, _⟩ := advances node
    rw [place] at there
    obtain ⟨old, here, rfl⟩ := Option.map_eq_some_iff.1 there
    exact ⟨old, here, ops old⟩
  refine ⟨fun node running => ?_, fun node below member => ?_,
    fun node below found running covers passed there => ?_,
    fun node here todo found blocked there event => ?_⟩
  · obtain ⟨alive, walk⟩ := kept node running
    exact Driver.activeAt_of_advances advances alive
      (drained.owned node (walk ▸ running))
  · have running : flush node ≠ .idle := by
      intro idle
      simp [idle, Flush.pending] at member
    rw [show (World.mk next flush).flush node = world.flush node from
      (kept node running).2] at member
    exact drained.inside node below member
  · obtain ⟨_, walk⟩ := kept node running
    obtain ⟨old, place, ops⟩ := before below found there
    rw [ops]
    refine drained.quiet node below old (walk ▸ running) covers ?_ place
    rwa [← walk]
  · obtain ⟨_, walk⟩ := kept node (by
      intro idle
      simp [idle] at blocked)
    obtain ⟨old, place, ops⟩ := before here found there
    rw [ops] at event ⊢
    exact drained.signalled node here todo old (walk ▸ blocked) place event

theorem edit (drained : world.Drained) (place : NodeId) (change : Node → Node)
    (same : ∀ here, (change here).trans = here.trans)
    (count : ∀ node found, world.flush node ≠ .idle → node.Covers place →
      world.driver.node? place = some found → found.ops.count = 0 →
        (change found).ops.count = 0)
    (event : ∀ node found, world.flush node ≠ .idle → node.Covers place →
      world.driver.node? place = some found →
        (found.ops.event = true → found.ops.count = 0) →
          (change found).ops.event = true → (change found).ops.count = 0) :
    World.Drained { world with driver := world.driver.edit place change } := by
  refine ⟨fun node running => Driver.activeAt_edit same (drained.owned node running),
    drained.inside, fun node below found running covers passed there => ?_,
    fun node here todo found blocked there set => ?_⟩
  · by_cases here : place = below
    · subst here
      rw [Driver.node?_edit_same] at there
      obtain ⟨old, was, rfl⟩ := Option.map_eq_some_iff.1 there
      exact count node old running covers was
        (drained.quiet node place old running covers passed was)
    · rw [Driver.node?_edit_other _ _ here] at there
      exact drained.quiet node below found running covers passed there
  · have running : world.flush node ≠ .idle := by
      intro idle
      simp [idle] at blocked
    have covers : node.Covers here := drained.inside node here (by
      simp only at blocked
      simp [blocked, Flush.pending])
    by_cases same : place = here
    · subst same
      rw [Driver.node?_edit_same] at there
      obtain ⟨old, was, rfl⟩ := Option.map_eq_some_iff.1 there
      exact event node old running covers was
        (drained.signalled node place todo old blocked was) set
    · rw [Driver.node?_edit_other _ _ same] at there
      exact drained.signalled node here todo found blocked there set

theorem walk (drained : world.Drained) {place : NodeId} {flush : Flush}
    (owned : world.driver.ActiveAt place)
    (inside : ∀ below ∈ flush.pending, place.Covers below)
    (quiet : ∀ below found, place.Covers below → below ∉ flush.pending →
      world.driver.node? below = some found → found.ops.count = 0)
    (signalled : ∀ here todo found, flush = .blocked here todo →
      world.driver.node? here = some found → found.ops.event = true →
        found.ops.count = 0) :
    (world.setFlush place flush).Drained := by
  have here : (world.setFlush place flush).flush place = flush := by simp [setFlush]
  have other : ∀ node, node ≠ place →
      (world.setFlush place flush).flush node = world.flush node := by
    intro node apart
    simp [setFlush, apart]
  refine ⟨fun node running => ?_, fun node => ?_, fun node => ?_, fun node => ?_⟩
  · by_cases same : node = place
    · exact same ▸ owned
    · rw [other node same] at running
      exact drained.owned node running
  · by_cases same : node = place
    · subst same
      rwa [here]
    · rw [other node same]
      exact drained.inside node
  · by_cases same : node = place
    · subst same
      rw [here]
      exact fun below found _ => quiet below found
    · rw [other node same]
      exact drained.quiet node
  · by_cases same : node = place
    · subst same
      rw [here]
      exact signalled
    · rw [other node same]
      exact drained.signalled node

theorem sampleOps (drained : world.Drained) (place : NodeId) :
    World.Drained { world with driver := (world.driver.sampleOps place).2 } := by
  unfold Driver.sampleOps
  cases world.driver.node? place with
  | none => exact drained
  | some found =>
    simp only
    split
    · refine drained.edit place Node.resetEvent (fun _ => rfl) ?_ ?_
      · exact fun _ _ _ _ _ none => none
      · exact fun _ _ _ _ _ _ set => by cases set
    · exact drained

theorem sampleNext (drained : world.Drained) (place : NodeId) :
    (world.sampleNext place).Drained := by
  unfold World.sampleNext
  split
  next walking =>
    have running : world.flush place ≠ .idle := by simp [walking]
    refine drained.walk (drained.owned place running) (by simp [Flush.pending])
      (fun below found covers _ there => ?_) (by simp)
    exact drained.quiet place below found running covers
      (by simp [walking, Flush.pending]) there
  next here todo walking =>
    have running : world.flush place ≠ .idle := by simp [walking]
    have inside : ∀ below ∈ here :: todo, place.Covers below := by
      simpa [walking, Flush.pending] using drained.inside place
    have next := drained.sampleOps here
    -- the node whose count is sampled is passed only when nothing is in flight there
    unfold Driver.sampleOps at next ⊢
    cases there : world.driver.node? here with
    | none =>
      simp only [there] at next ⊢
      refine next.walk (next.owned place running)
        (fun below member => inside below (List.mem_cons_of_mem _ member))
        (fun below found covers passed within => ?_) (by simp)
      refine drained.quiet place below found running covers ?_ within
      rw [walking]
      refine List.not_mem_cons_of_ne_of_not_mem (fun same => ?_) passed
      simp [same, there] at within
    | some found =>
      simp only [there] at next ⊢
      by_cases busy : 0 < found.ops.count
      · simp only [busy, if_true] at next ⊢
        refine next.walk (next.owned place running) inside
          (fun below other covers passed within => ?_) ?_
        · refine next.quiet place below other running covers ?_ within
          rwa [show (World.mk _ world.flush).flush place = _ from walking]
        · rintro first rest other same within set
          cases same
          rw [Driver.node?_edit_same, there] at within
          cases within
          cases set
      · simp only [busy, if_false] at next ⊢
        refine next.walk (next.owned place running)
          (fun below member => inside below (List.mem_cons_of_mem _ member))
          (fun below other covers passed within => ?_) (by simp)
        by_cases same : below = here
        · subst same
          obtain rfl : found = other := by simpa [there] using within
          omega
        · refine drained.quiet place below other running covers ?_ within
          rw [walking]
          exact List.not_mem_cons_of_ne_of_not_mem same passed
  · exact drained

theorem wakeUp (drained : world.Drained) {place : NodeId}
    (allowed : (world.flush place).signalled world.driver = true) :
    (world.wakeUp place).Drained := by
  unfold World.wakeUp
  split
  next here todo blocked =>
    have running : world.flush place ≠ .idle := by simp [blocked]
    have inside : ∀ below ∈ here :: todo, place.Covers below := by
      simpa [blocked, Flush.pending] using drained.inside place
    refine drained.walk (drained.owned place running)
      (fun below member => inside below (List.mem_cons_of_mem _ member))
      (fun below found covers passed within => ?_) (by simp)
    by_cases same : below = here
    · subst same
      refine drained.signalled place below todo found blocked within ?_
      simpa [blocked, Flush.signalled, within] using allowed
    · refine drained.quiet place below found running covers ?_ within
      rw [blocked]
      exact List.not_mem_cons_of_ne_of_not_mem same passed
  · exact drained

theorem apply (drained : world.Drained) {move : Move} (allowed : world.Allowed move) :
    (world.apply move).Drained := by
  cases move with
  | transStart platform node desc =>
    exact drained.advance (transStart_advances world.driver platform desc node)
      (fun _ none => absurd none (Set.notMem_empty _)) fun _ _ => rfl
  | transStartWait platform node desc =>
    exact drained.advance (transStartWait_advances world.driver platform desc node)
      (fun _ none => absurd none (Set.notMem_empty _)) fun _ _ => rfl
  | transStop node =>
    refine drained.advance (transStop_advances world.driver allowed.1) ?_ ?_
    · rintro other rfl
      simp
    · intro other apart
      simp only [Set.mem_singleton_iff] at apart
      simp [apart]
  | opStart platform node =>
    change World.Drained { world with driver := (world.driver.opStart platform node).2 }
    unfold Driver.opStart
    split
    next can =>
      refine drained.edit node Node.opsInsert (fun _ => rfl) ?_ ?_
      · intro owner _ running covers
        exact absurd (drained.owned owner running)
          (Driver.not_activeAt_of_canOp can covers)
      · intro owner _ running covers
        exact absurd (drained.owned owner running)
          (Driver.not_activeAt_of_canOp can covers)
    · exact drained
  | opStop node =>
    refine drained.edit node Node.opsRemove (fun _ => rfl) ?_ ?_
    · intro _ found _ _ _ none
      simp [Node.opsRemove, none]
    · intro _ found _ _ _ before set
      simp only [Node.opsRemove, Bool.or_eq_true, decide_eq_true_eq] at set ⊢
      rcases set with set | none
      · simp [before set]
      · exact none
  | waitForOps node =>
    refine drained.walk allowed.1 (fun below => Driver.covers_of_mem_waitList)
      (fun below found covers passed there => ?_) (by simp)
    exact absurd (Driver.mem_waitList covers there) passed
  | sample node => exact drained.sampleNext node
  | wake node => exact drained.wakeUp allowed
  | otherSample node => exact drained.sampleOps node

end World.Drained

namespace World

theorem Fresh.drained {world : World} (fresh : world.Fresh) : world.Drained := by
  obtain ⟨vdevs, rfl⟩ := fresh
  refine ⟨fun _ running => absurd rfl running, fun _ _ member => ?_,
    fun _ _ _ running => absurd rfl running, fun _ _ _ _ blocked => ?_⟩
  · cases member
  · cases blocked

theorem drained_of_reachable {world : World} (reached : Reachable Fresh Step world) :
    world.Drained := by
  refine reached.invariant (fun _ fresh => fresh.drained) ?_
  rintro before after drained ⟨move, allowed, rfl⟩
  exact drained.apply allowed

theorem flush_returned_apply {world : World} {node : NodeId}
    (returned : world.flush node = .returned) {move : Move}
    (allowed : world.Allowed move) :
    (world.apply move).flush node = .returned ∨
      ∃ stopped, move = .transStop stopped ∧
        stopTarget world.driver stopped = node := by
  have other : ∀ (before : World) (place : NodeId) (flush : Flush), node ≠ place →
      (before.setFlush place flush).flush node = before.flush node := by
    intro before place flush apart
    simp [setFlush, apart]
  cases move with
  | transStop stopped =>
    by_cases ended : stopTarget world.driver stopped = node
    · exact .inr ⟨stopped, rfl, ended⟩
    · exact .inl ((other _ _ _ (Ne.symm ended)).trans returned)
  | waitForOps place =>
    refine .inl ((other _ _ _ ?_).trans returned)
    rintro rfl
    exact absurd allowed.2 (by simp [returned])
  | sample place =>
    left
    change (world.sampleNext place).flush node = .returned
    unfold sampleNext
    split
    next walking =>
      refine (other _ _ _ ?_).trans returned
      rintro rfl
      simp [returned] at walking
    next walking =>
      refine (other _ _ _ ?_).trans returned
      rintro rfl
      simp [returned] at walking
    · exact returned
  | wake place =>
    left
    change (world.wakeUp place).flush node = .returned
    unfold wakeUp
    split
    next blocked =>
      refine (other _ _ _ ?_).trans returned
      rintro rfl
      simp [returned] at blocked
    · exact returned
  | _ => exact .inl returned

/-- After the owner's `wait_for_ops` nothing is in flight in the subtree and nothing
starts there, and this lasts until the transition is stopped. -/
theorem no_ops_of_returned {world : World} (reached : Reachable Fresh Step world)
    {node : NodeId} (returned : world.flush node = .returned) :
    (∀ below found, node.Covers below → world.driver.node? below = some found →
      found.ops.count = 0) ∧
    (∀ platform below, node.Covers below →
      (world.driver.opStart platform below).1 ≠ .success) ∧
    (∀ move, world.Allowed move →
      (world.apply move).flush node = .returned ∨
        ∃ stopped, move = .transStop stopped ∧
          stopTarget world.driver stopped = node) := by
  have drained := drained_of_reachable reached
  have running : world.flush node ≠ .idle := by simp [returned]
  refine ⟨fun below found covers there => ?_, fun platform below covers started => ?_,
    fun move allowed => flush_returned_apply returned allowed⟩
  · exact drained.quiet node below found running covers
      (by simp [returned, Flush.pending]) there
  · have can : world.driver.canOp platform below = .success := by
      unfold Driver.opStart at started
      split at started
      · assumption
      · exact started
    exact Driver.not_activeAt_of_canOp can covers (drained.owned node running)

/-- Operations run on a psoc and on its vdev when the psoc's transition starts; its
owner waits for both. -/
def flushMoves : List Move :=
  let platform : Platform := { recovering := false, unloading := false }
  [.opStart platform (.psoc 0), .opStart platform (.vdev 0 0),
    .transStart platform (.psoc 0) "psoc", .waitForOps (.psoc 0), .sample (.psoc 0),
    .otherSample (.psoc 0), .opStop (.psoc 0), .wake (.psoc 0), .opStop (.vdev 0 0),
    .sample (.psoc 0), .sample (.psoc 0)]

def flushWorld : World := ((create [1]).run flushMoves).get (by decide +kernel)

theorem flushWorld_no_ops :
    (∀ below found, (NodeId.psoc 0).Covers below →
      flushWorld.driver.node? below = some found → found.ops.count = 0) ∧
    (∀ platform below, (NodeId.psoc 0).Covers below →
      (flushWorld.driver.opStart platform below).1 ≠ .success) ∧
    (∀ move, flushWorld.Allowed move →
      (flushWorld.apply move).flush (.psoc 0) = .returned ∨
        ∃ stopped, move = .transStop stopped ∧
          stopTarget flushWorld.driver stopped = .psoc 0) :=
  no_ops_of_returned
    (run_reachable (.start ⟨_, rfl⟩) (fun _ move _ allowed => ⟨move, allowed, rfl⟩) _)
    (show flushWorld.flush (.psoc 0) = .returned by decide +kernel)

end World

end VendorModules.Dsc
