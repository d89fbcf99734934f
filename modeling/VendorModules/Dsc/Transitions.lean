import VendorModules.Dsc.Tree

namespace VendorModules.Dsc

/-- The global flags `qdf_is_recovering` and `qdf_is_driver_unloading` read. -/
structure Platform where
  recovering : Bool
  unloading : Bool
  deriving DecidableEq, Repr

namespace Psoc

def transActiveDownTree (psoc : Psoc) : Bool :=
  psoc.vdevs.any fun vdev => vdev.trans.active

def busy (psoc : Psoc) : Bool := psoc.trans.active || psoc.transActiveDownTree

def triggerTree (psoc : Psoc) : Psoc :=
  if psoc.trans.trigger.1 then
    { psoc with toNode := psoc.toNode.trigger }
  else
    { psoc with vdevs := psoc.vdevs.map Node.trigger }

end Psoc

namespace Driver

/-! The driver's own transitions. A result of `none` stands for a caller that goes on
to wait for the transition it has queued. -/

def transActiveDownTree (driver : Driver) : Bool :=
  driver.psocs.any Psoc.busy

def canTrans (driver : Driver) : Bool :=
  !driver.trans.activeOrQueued && !driver.transActiveDownTree

def canTrigger (driver : Driver) : Bool :=
  !driver.trans.active && !driver.transActiveDownTree

def transStart (driver : Driver) (desc : String) : QdfStatus × Driver :=
  if driver.canTrans then
    (.success, driver.edit .driver (Node.start desc))
  else
    (.eAgain, driver)

def transStartWait (driver : Driver) (desc : String) : Option QdfStatus × Driver :=
  match driver.transStart desc with
  | (.success, started) => (some .success, started)
  | _ => (none, driver.edit .driver (Node.enqueue desc))

def transTriggerChecked (driver : Driver) : Bool × Driver :=
  if !driver.trans.queued then
    (false, driver)
  else if !driver.canTrigger then
    -- handled: the driver waits for the rest of its children
    (true, driver)
  else
    (driver.trans.trigger.1, driver.edit .driver Node.trigger)

def triggerTrans (driver : Driver) : Driver :=
  if driver.trans.trigger.1 then
    driver.edit .driver Node.trigger
  else
    { driver with psocs := driver.psocs.map Psoc.triggerTree }

def transStop (driver : Driver) : Driver :=
  (driver.edit .driver Node.stop).triggerTrans

/-! The transitions of the psoc at position `i`. -/

def psocCanTrans (driver : Driver) (psoc : Psoc) : QdfStatus :=
  if driver.trans.activeOrQueued then
    .eInval
  else if psoc.trans.activeOrQueued || psoc.transActiveDownTree then
    .eAgain
  else
    .success

def psocCanTrigger (driver : Driver) (psoc : Psoc) : Bool :=
  !driver.trans.activeOrQueued && !psoc.trans.active && !psoc.transActiveDownTree

def psocTransStart (driver : Driver) (i : Nat) (desc : String) : QdfStatus × Driver :=
  match driver.psocs[i]? with
  | none => (.eInval, driver)
  | some psoc =>
    match driver.psocCanTrans psoc with
    | .success => (.success, driver.edit (.psoc i) (Node.start desc))
    | refused => (refused, driver)

def psocTransStartWait (driver : Driver) (i : Nat) (desc : String) :
    Option QdfStatus × Driver :=
  match driver.psocTransStart i desc with
  | (.success, started) => (some .success, started)
  | (.eInval, _) => (some .eInval, driver)
  | _ => (none, driver.edit (.psoc i) (Node.enqueue desc))

def psocTriggerTrans (driver : Driver) (i : Nat) : Driver :=
  if driver.transTriggerChecked.1 then
    driver.transTriggerChecked.2
  else
    driver.transTriggerChecked.2.editPsoc i Psoc.triggerTree

def psocTransStop (driver : Driver) (i : Nat) : Driver :=
  match driver.psocs[i]? with
  | none => driver
  | some psoc =>
    if psoc.trans.active then
      (driver.edit (.psoc i) Node.stop).psocTriggerTrans i
    else
      (driver.edit .driver Node.stop).psocTriggerTrans i

def psocTransTriggerChecked (driver : Driver) (i : Nat) : Bool × Driver :=
  match driver.psocs[i]? with
  | none => (false, driver)
  | some psoc =>
    if !psoc.trans.queued then
      (false, driver)
    else if !driver.psocCanTrigger psoc then
      -- handled: the psoc waits for the rest of its children
      (true, driver)
    else
      (psoc.trans.trigger.1, driver.edit (.psoc i) Node.trigger)

/-! The transitions of the vdev at position `j` of that psoc. -/

def vdevCanTrans (driver : Driver) (platform : Platform) (psoc : Psoc) (vdev : Node) :
    QdfStatus :=
  if driver.trans.activeOrQueued then
    .eInval
  else if platform.recovering then
    .eInval
  else if psoc.trans.activeOrQueued then
    if platform.unloading then .eInval else .eBusy
  else if vdev.trans.activeOrQueued then
    .eBusy
  else
    .success

def vdevTransStart (driver : Driver) (platform : Platform) (i j : Nat)
    (desc : String) : QdfStatus × Driver :=
  match driver.psocs[i]? with
  | none => (.eInval, driver)
  | some psoc =>
    match psoc.vdevs[j]? with
    | none => (.eInval, driver)
    | some vdev =>
      match driver.vdevCanTrans platform psoc vdev with
      | .success => (.success, driver.edit (.vdev i j) (Node.start desc))
      | refused => (refused, driver)

def vdevTransStartWait (driver : Driver) (platform : Platform) (i j : Nat)
    (desc : String) : Option QdfStatus × Driver :=
  match driver.vdevTransStart platform i j desc with
  | (.success, started) => (some .success, started)
  | (.eInval, _) => (some .eInval, driver)
  | _ => (none, driver.edit (.vdev i j) (Node.enqueue desc))

def vdevTriggerTrans (driver : Driver) (i j : Nat) : Driver :=
  if driver.transTriggerChecked.1 then
    driver.transTriggerChecked.2
  else if (driver.transTriggerChecked.2.psocTransTriggerChecked i).1 then
    (driver.transTriggerChecked.2.psocTransTriggerChecked i).2
  else
    (driver.transTriggerChecked.2.psocTransTriggerChecked i).2.edit (.vdev i j)
      Node.trigger

def vdevTransStop (driver : Driver) (i j : Nat) : Driver :=
  (driver.edit (.vdev i j) Node.stop).vdevTriggerTrans i j

/-! Operations: `can_op` is `can_trans` at every level. -/

def canOp (driver : Driver) (platform : Platform) : NodeId → QdfStatus
  | .driver => if driver.canTrans then .success else .eAgain
  | .psoc i =>
    match driver.psocs[i]? with
    | none => .eInval
    | some psoc => driver.psocCanTrans psoc
  | .vdev i j =>
    match driver.psocs[i]? with
    | none => .eInval
    | some psoc =>
      match psoc.vdevs[j]? with
      | none => .eInval
      | some vdev => driver.vdevCanTrans platform psoc vdev

def opStart (driver : Driver) (platform : Platform) (node : NodeId) :
    QdfStatus × Driver :=
  match driver.canOp platform node with
  | .success => (.success, driver.edit node Node.opsInsert)
  | refused => (refused, driver)

def opStop (driver : Driver) (node : NodeId) : Driver := driver.edit node Node.opsRemove

/-- The locked part of a wait on one node: whether the caller has to wait for the
event, which it then has reset. -/
def sampleOps (driver : Driver) (node : NodeId) : Bool × Driver :=
  match driver.node? node with
  | none => (false, driver)
  | some found =>
    if 0 < found.ops.count then
      (true, driver.edit node Node.resetEvent)
    else
      (false, driver)

def psocWaitList (driver : Driver) (i : Nat) : List NodeId :=
  .psoc i ::
    (List.range ((driver.psocs[i]?.map fun psoc => psoc.vdevs.length).getD 0)).map
      (.vdev i)

/-- The nodes that `wait_for_ops` visits, in its order. -/
def waitList (driver : Driver) : NodeId → List NodeId
  | .driver => .driver ::
      (List.range driver.psocs.length).flatMap driver.psocWaitList
  | .psoc i => driver.psocWaitList i
  | .vdev i j => [.vdev i j]

/-! What each function can do to the tree. -/

theorem transStart_cases (driver : Driver) (desc : String) :
    (driver.canTrans = true ∧
      driver.transStart desc = (.success, driver.edit .driver (Node.start desc))) ∨
    (driver.canTrans = false ∧ driver.transStart desc = (.eAgain, driver)) := by
  unfold transStart
  cases driver.canTrans <;> simp

theorem transStartWait_cases (driver : Driver) (desc : String) :
    (driver.canTrans = true ∧
      (driver.transStartWait desc).2 = driver.edit .driver (Node.start desc)) ∨
    (driver.canTrans = false ∧
      (driver.transStartWait desc).2 = driver.edit .driver (Node.enqueue desc)) := by
  unfold transStartWait
  rcases driver.transStart_cases desc with ⟨free, started⟩ | ⟨busy, refused⟩
  · exact .inl ⟨free, by rw [started]⟩
  · exact .inr ⟨busy, by rw [refused]⟩

theorem transTriggerChecked_cases (driver : Driver) :
    (driver.trans.queued = false ∧ driver.transTriggerChecked = (false, driver)) ∨
    (driver.trans.queued = true ∧ driver.canTrigger = false ∧
      driver.transTriggerChecked = (true, driver)) ∨
    (driver.trans.queued = true ∧ driver.canTrigger = true ∧
      driver.transTriggerChecked = (true, driver.edit .driver Node.trigger)) := by
  unfold transTriggerChecked
  cases queued : driver.trans.queued <;> cases driver.canTrigger <;> simp [queued]

theorem triggerTrans_cases (driver : Driver) :
    (driver.trans.queued = true ∧
      driver.triggerTrans = driver.edit .driver Node.trigger) ∨
    (driver.trans.queued = false ∧
      driver.triggerTrans =
        { driver with psocs := driver.psocs.map Psoc.triggerTree }) := by
  unfold triggerTrans
  cases queued : driver.trans.queued <;> simp [queued]

theorem psocTransStart_cases (driver : Driver) (i : Nat) (desc : String) :
    (∃ psoc, driver.psocs[i]? = some psoc ∧ driver.psocCanTrans psoc = .success ∧
      driver.psocTransStart i desc =
        (.success, driver.edit (.psoc i) (Node.start desc))) ∨
    driver.psocTransStart i desc = (.eInval, driver) ∨
    (∃ psoc, driver.psocs[i]? = some psoc ∧ driver.psocCanTrans psoc = .eAgain ∧
      driver.psocTransStart i desc = (.eAgain, driver)) := by
  unfold psocTransStart
  cases found : driver.psocs[i]? with
  | none => exact .inr (.inl rfl)
  | some psoc =>
    simp only [Option.some.injEq, exists_eq_left']
    cases can : driver.psocCanTrans psoc with
    | success => simp
    | eInval => simp
    | eAgain => simp
    | eBusy =>
      unfold psocCanTrans at can
      split at can <;> (try split at can) <;> cases can

theorem psocTransStartWait_cases (driver : Driver) (i : Nat) (desc : String) :
    (∃ psoc, driver.psocs[i]? = some psoc ∧ driver.psocCanTrans psoc = .success ∧
      (driver.psocTransStartWait i desc).2 =
        driver.edit (.psoc i) (Node.start desc)) ∨
    (driver.psocTransStartWait i desc).2 = driver ∨
    (∃ psoc, driver.psocs[i]? = some psoc ∧ driver.psocCanTrans psoc = .eAgain ∧
      (driver.psocTransStartWait i desc).2 =
        driver.edit (.psoc i) (Node.enqueue desc)) := by
  unfold psocTransStartWait
  rcases driver.psocTransStart_cases i desc with
    ⟨psoc, found, free, started⟩ | refused | ⟨psoc, found, busy, refused⟩
  · exact .inl ⟨psoc, found, free, by rw [started]⟩
  · exact .inr (.inl (by rw [refused]))
  · exact .inr (.inr ⟨psoc, found, busy, by rw [refused]⟩)

theorem psocTriggerTrans_cases (driver : Driver) (i : Nat) :
    (driver.trans.queued = false ∧
      driver.psocTriggerTrans i = driver.editPsoc i Psoc.triggerTree) ∨
    (driver.trans.queued = true ∧ driver.canTrigger = false ∧
      driver.psocTriggerTrans i = driver) ∨
    (driver.trans.queued = true ∧ driver.canTrigger = true ∧
      driver.psocTriggerTrans i = driver.edit .driver Node.trigger) := by
  unfold psocTriggerTrans
  rcases driver.transTriggerChecked_cases with
    ⟨queued, checked⟩ | ⟨queued, free, checked⟩ | ⟨queued, free, checked⟩
  · simp [checked, queued]
  · simp [checked, queued, free]
  · simp [checked, queued, free]

theorem psocTransTriggerChecked_cases (driver : Driver) {i : Nat} {psoc : Psoc}
    (found : driver.psocs[i]? = some psoc) :
    (psoc.trans.queued = false ∧
      driver.psocTransTriggerChecked i = (false, driver)) ∨
    (psoc.trans.queued = true ∧ driver.psocCanTrigger psoc = false ∧
      driver.psocTransTriggerChecked i = (true, driver)) ∨
    (psoc.trans.queued = true ∧ driver.psocCanTrigger psoc = true ∧
      driver.psocTransTriggerChecked i =
        (true, driver.edit (.psoc i) Node.trigger)) := by
  unfold psocTransTriggerChecked
  cases queued : psoc.trans.queued <;> cases free : driver.psocCanTrigger psoc <;>
    simp [found, queued, free]

theorem vdevTransStart_cases (driver : Driver) (platform : Platform) (i j : Nat)
    (desc : String) :
    (∃ psoc vdev, driver.psocs[i]? = some psoc ∧ psoc.vdevs[j]? = some vdev ∧
      driver.vdevCanTrans platform psoc vdev = .success ∧
      driver.vdevTransStart platform i j desc =
        (.success, driver.edit (.vdev i j) (Node.start desc))) ∨
    driver.vdevTransStart platform i j desc = (.eInval, driver) ∨
    (∃ psoc vdev, driver.psocs[i]? = some psoc ∧ psoc.vdevs[j]? = some vdev ∧
      driver.vdevCanTrans platform psoc vdev = .eBusy ∧
      driver.vdevTransStart platform i j desc = (.eBusy, driver)) := by
  unfold vdevTransStart
  cases found : driver.psocs[i]? with
  | none => exact .inr (.inl rfl)
  | some psoc =>
    cases here : psoc.vdevs[j]? with
    | none => exact .inr (.inl (by simp [here]))
    | some vdev =>
      simp only [here]
      cases can : driver.vdevCanTrans platform psoc vdev with
      | success => exact .inl ⟨psoc, vdev, rfl, here, can, rfl⟩
      | eInval => exact .inr (.inl rfl)
      | eBusy => exact .inr (.inr ⟨psoc, vdev, rfl, here, can, rfl⟩)
      | eAgain =>
        unfold vdevCanTrans at can
        split at can <;> (try split at can) <;> (try split at can) <;>
          (try split at can) <;> cases can

theorem vdevTransStartWait_cases (driver : Driver) (platform : Platform) (i j : Nat)
    (desc : String) :
    (∃ psoc vdev, driver.psocs[i]? = some psoc ∧ psoc.vdevs[j]? = some vdev ∧
      driver.vdevCanTrans platform psoc vdev = .success ∧
      (driver.vdevTransStartWait platform i j desc).2 =
        driver.edit (.vdev i j) (Node.start desc)) ∨
    (driver.vdevTransStartWait platform i j desc).2 = driver ∨
    (∃ psoc vdev, driver.psocs[i]? = some psoc ∧ psoc.vdevs[j]? = some vdev ∧
      driver.vdevCanTrans platform psoc vdev = .eBusy ∧
      (driver.vdevTransStartWait platform i j desc).2 =
        driver.edit (.vdev i j) (Node.enqueue desc)) := by
  unfold vdevTransStartWait
  rcases driver.vdevTransStart_cases platform i j desc with
    ⟨psoc, vdev, found, here, free, started⟩ | refused |
      ⟨psoc, vdev, found, here, busy, refused⟩
  · exact .inl ⟨psoc, vdev, found, here, free, by rw [started]⟩
  · exact .inr (.inl (by rw [refused]))
  · exact .inr (.inr ⟨psoc, vdev, found, here, busy, by rw [refused]⟩)

theorem vdevTriggerTrans_cases (driver : Driver) {i : Nat} (j : Nat) {psoc : Psoc}
    (found : driver.psocs[i]? = some psoc) :
    (driver.trans.queued = true ∧ driver.canTrigger = false ∧
      driver.vdevTriggerTrans i j = driver) ∨
    (driver.trans.queued = true ∧ driver.canTrigger = true ∧
      driver.vdevTriggerTrans i j = driver.edit .driver Node.trigger) ∨
    (driver.trans.queued = false ∧ psoc.trans.queued = true ∧
      driver.psocCanTrigger psoc = false ∧ driver.vdevTriggerTrans i j = driver) ∨
    (driver.trans.queued = false ∧ psoc.trans.queued = true ∧
      driver.psocCanTrigger psoc = true ∧
      driver.vdevTriggerTrans i j = driver.edit (.psoc i) Node.trigger) ∨
    (driver.trans.queued = false ∧ psoc.trans.queued = false ∧
      driver.vdevTriggerTrans i j = driver.edit (.vdev i j) Node.trigger) := by
  unfold vdevTriggerTrans
  rcases driver.transTriggerChecked_cases with
    ⟨queued, checked⟩ | ⟨queued, free, checked⟩ | ⟨queued, free, checked⟩
  · rcases driver.psocTransTriggerChecked_cases found with
      ⟨waits, below⟩ | ⟨waits, free, below⟩ | ⟨waits, free, below⟩
    · simp [checked, below, queued, waits]
    · simp [checked, below, queued, waits, free]
    · simp [checked, below, queued, waits, free]
  · simp [checked, queued, free]
  · simp [checked, queued, free]

end Driver

end VendorModules.Dsc
