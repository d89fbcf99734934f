import Mathlib.Data.List.Basic
import Mathlib.Order.Antichain

namespace VendorModules.Dsc

inductive QdfStatus
  | success
  | eInval
  | eAgain
  | eBusy
  deriving DecidableEq, Repr

/-- `count` is the number of operations in flight; `event` says whether the event
was set since its last reset. -/
structure Ops where
  count : Nat
  event : Bool
  deriving DecidableEq, Repr

/-- `queue` holds the descriptions of the transitions that wait, each for the thread
that queued it. `panicked` records that an assertion on `activeDesc` has failed. -/
structure Trans where
  activeDesc : Option String
  queue : List String
  panicked : Bool
  deriving DecidableEq, Repr

namespace Trans

def init : Trans := { activeDesc := none, queue := [], panicked := false }

def active (trans : Trans) : Bool := trans.activeDesc.isSome

def queued (trans : Trans) : Bool := !trans.queue.isEmpty

def activeOrQueued (trans : Trans) : Bool := trans.active || trans.queued

def start (trans : Trans) (desc : String) : Trans :=
  { trans with
    activeDesc := some desc
    panicked := trans.panicked || trans.active }

def stop (trans : Trans) : Trans :=
  { trans with
    activeDesc := none
    panicked := trans.panicked || !trans.active }

def enqueue (trans : Trans) (desc : String) : Trans :=
  { trans with queue := trans.queue ++ [desc] }

/-- Starts the transition at the front of the queue, if there is one. Its thread is
woken, which is what its absence from the queue stands for. -/
def trigger (trans : Trans) : Bool × Trans :=
  match trans.queue with
  | [] => (false, trans)
  | desc :: rest => (true, { trans with queue := rest }.start desc)

@[simp] theorem start_active (trans : Trans) (desc : String) :
    (trans.start desc).active = true := rfl

@[simp] theorem stop_active (trans : Trans) : trans.stop.active = false := rfl

@[simp] theorem enqueue_active (trans : Trans) (desc : String) :
    (trans.enqueue desc).active = trans.active := rfl

@[simp] theorem start_queued (trans : Trans) (desc : String) :
    (trans.start desc).queued = trans.queued := rfl

@[simp] theorem stop_queued (trans : Trans) : trans.stop.queued = trans.queued := rfl

@[simp] theorem enqueue_queued (trans : Trans) (desc : String) :
    (trans.enqueue desc).queued = true := by
  simp [enqueue, queued]

@[simp] theorem start_panicked (trans : Trans) (desc : String) :
    (trans.start desc).panicked = (trans.panicked || trans.active) := rfl

@[simp] theorem stop_panicked (trans : Trans) :
    trans.stop.panicked = (trans.panicked || !trans.active) := rfl

@[simp] theorem enqueue_panicked (trans : Trans) (desc : String) :
    (trans.enqueue desc).panicked = trans.panicked := rfl

@[simp] theorem trigger_fst (trans : Trans) : trans.trigger.1 = trans.queued := by
  unfold trigger queued
  cases trans.queue <;> rfl

theorem trigger_of_not_queued {trans : Trans} (idle : trans.queued = false) :
    trans.trigger.2 = trans := by
  unfold trigger
  cases queue : trans.queue with
  | nil => rfl
  | cons desc rest => simp [queued, queue] at idle

@[simp] theorem trigger_active (trans : Trans) :
    trans.trigger.2.active = (trans.active || trans.queued) := by
  unfold trigger queued
  cases trans.queue with
  | nil => simp
  | cons desc rest => simp

@[simp] theorem trigger_panicked (trans : Trans) :
    trans.trigger.2.panicked = (trans.panicked || (trans.queued && trans.active)) := by
  unfold trigger queued
  cases trans.queue with
  | nil => simp
  | cons desc rest => simp [active]

end Trans

structure Node where
  trans : Trans
  ops : Ops
  deriving DecidableEq, Repr

structure Psoc extends Node where
  vdevs : List Node
  deriving DecidableEq, Repr

structure Driver extends Node where
  psocs : List Psoc
  deriving DecidableEq, Repr

namespace Node

def init : Node := { trans := .init, ops := { count := 0, event := false } }

def start (desc : String) (node : Node) : Node :=
  { node with trans := node.trans.start desc }

def stop (node : Node) : Node := { node with trans := node.trans.stop }

def enqueue (desc : String) (node : Node) : Node :=
  { node with trans := node.trans.enqueue desc }

def trigger (node : Node) : Node := { node with trans := node.trans.trigger.2 }

/-- `__dsc_ops_insert` counts the operation in. -/
def opsInsert (node : Node) : Node :=
  { node with ops := { node.ops with count := node.ops.count + 1 } }

/-- `__dsc_ops_remove` counts the operation out, and its callers set the event when
it was the last one. -/
def opsRemove (node : Node) : Node :=
  { node with ops :=
      { count := node.ops.count - 1
        event := node.ops.event || decide (node.ops.count - 1 = 0) } }

def resetEvent (node : Node) : Node :=
  { node with ops := { node.ops with event := false } }

@[simp] theorem start_trans (node : Node) (desc : String) :
    (node.start desc).trans = node.trans.start desc := rfl

@[simp] theorem stop_trans (node : Node) : node.stop.trans = node.trans.stop := rfl

@[simp] theorem enqueue_trans (node : Node) (desc : String) :
    (node.enqueue desc).trans = node.trans.enqueue desc := rfl

@[simp] theorem trigger_trans (node : Node) :
    node.trigger.trans = node.trans.trigger.2 := rfl

@[simp] theorem start_ops (node : Node) (desc : String) :
    (node.start desc).ops = node.ops := rfl

@[simp] theorem stop_ops (node : Node) : node.stop.ops = node.ops := rfl

@[simp] theorem enqueue_ops (node : Node) (desc : String) :
    (node.enqueue desc).ops = node.ops := rfl

@[simp] theorem trigger_ops (node : Node) : node.trigger.ops = node.ops := rfl

end Node

/-- A node of the tree: the driver, one of its psocs by position, or a vdev of a
psoc by the positions of both. -/
inductive NodeId
  | driver
  | psoc (i : Nat)
  | vdev (i j : Nat)
  deriving DecidableEq, Repr

namespace NodeId

def Above : NodeId → NodeId → Prop
  | .driver, .psoc _ => True
  | .driver, .vdev _ _ => True
  | .psoc i, .vdev k _ => i = k
  | _, _ => False

def Covers (node below : NodeId) : Prop := node = below ∨ node.Above below

def Related (node other : NodeId) : Prop := node.Covers other ∨ other.Covers node

instance : DecidableRel Above := fun node below => by
  cases node <;> cases below <;> unfold Above <;> infer_instance

instance (node below : NodeId) : Decidable (node.Covers below) :=
  inferInstanceAs (Decidable (_ ∨ _))

instance (node other : NodeId) : Decidable (node.Related other) :=
  inferInstanceAs (Decidable (_ ∨ _))

@[simp] theorem covers_refl (node : NodeId) : node.Covers node := .inl rfl

@[simp] theorem driver_covers (node : NodeId) : NodeId.driver.Covers node := by
  cases node <;> simp [Covers, Above]

theorem psoc_covers {i : Nat} {node : NodeId} :
    (NodeId.psoc i).Covers node ↔ node = .psoc i ∨ ∃ j, node = .vdev i j := by
  cases node <;> simp [Covers, Above, eq_comm]

theorem vdev_covers {i j : Nat} {node : NodeId} :
    (NodeId.vdev i j).Covers node ↔ node = .vdev i j := by
  cases node <;> simp [Covers, Above, eq_comm]

theorem vdev_related {i j : Nat} {other : NodeId} :
    (NodeId.vdev i j).Related other ↔
      other = .driver ∨ other = .psoc i ∨ other = .vdev i j := by
  unfold Related
  rw [vdev_covers]
  cases other <;> simp [Covers, Above, eq_comm]

theorem covers_of_related {k : Nat} {node other : NodeId}
    (covers : (NodeId.psoc k).Covers node) (related : node.Related other)
    (below : other ≠ .driver) : (NodeId.psoc k).Covers other := by
  rcases psoc_covers.1 covers with rfl | ⟨j, rfl⟩
  · rcases related with down | up
    · exact down
    · cases other <;> simp_all [Covers, Above]
  · rcases vdev_related.1 related with rfl | rfl | rfl
    · exact absurd rfl below
    · exact covers_refl _
    · exact covers

end NodeId

theorem mem_modify {α : Type*} {list : List α} {i : Nat} {change : α → α} {item : α}
    (member : item ∈ list.modify i change) :
    item ∈ list ∨ ∃ before, list[i]? = some before ∧ item = change before := by
  obtain ⟨k, found⟩ := List.mem_iff_getElem?.1 member
  rw [List.getElem?_modify] at found
  by_cases same : i = k
  · subst same
    obtain ⟨before, there, rfl⟩ := by simpa using found
    exact .inr ⟨before, there, rfl⟩
  · exact .inl (List.mem_of_getElem? (by simpa [same] using found))

theorem any_modify {α : Type*} (list : List α) (i : Nat) {change : α → α}
    {test : α → Bool} (same : ∀ item, test (change item) = test item) :
    (list.modify i change).any test = list.any test := by
  have flags : (list.modify i change).map test = list.map test := by
    apply List.ext_getElem?
    intro k
    simp only [List.getElem?_map, List.getElem?_modify]
    split <;> cases list[k]? <;> simp [same]
  simpa [List.any_map] using congrArg (fun flags => flags.any id) flags

namespace Driver

def node? (driver : Driver) : NodeId → Option Node
  | .driver => some driver.toNode
  | .psoc i => driver.psocs[i]?.map Psoc.toNode
  | .vdev i j => driver.psocs[i]?.bind fun psoc => psoc.vdevs[j]?

def editPsoc (driver : Driver) (i : Nat) (change : Psoc → Psoc) : Driver :=
  { driver with psocs := driver.psocs.modify i change }

def edit (driver : Driver) (node : NodeId) (change : Node → Node) : Driver :=
  match node with
  | .driver => { driver with toNode := change driver.toNode }
  | .psoc i => driver.editPsoc i fun psoc =>
    { psoc with toNode := change psoc.toNode }
  | .vdev i j => driver.editPsoc i fun psoc =>
    { psoc with vdevs := psoc.vdevs.modify j change }

def ActiveAt (driver : Driver) (node : NodeId) : Prop :=
  ∃ found, driver.node? node = some found ∧ found.trans.active

def QueuedAt (driver : Driver) (node : NodeId) : Prop :=
  ∃ found, driver.node? node = some found ∧ found.trans.queued

instance (driver : Driver) (node : NodeId) : Decidable (driver.ActiveAt node) :=
  match found : driver.node? node with
  | none => isFalse (by simp [ActiveAt, found])
  | some here => decidable_of_iff (here.trans.active = true) (by simp [ActiveAt, found])

instance (driver : Driver) (node : NodeId) : Decidable (driver.QueuedAt node) :=
  match found : driver.node? node with
  | none => isFalse (by simp [QueuedAt, found])
  | some here => decidable_of_iff (here.trans.queued = true) (by simp [QueuedAt, found])

theorem node?_edit (driver : Driver) (node other : NodeId) (change : Node → Node) :
    (driver.edit node change).node? other =
      if node = other then (driver.node? other).map change
      else driver.node? other := by
  cases node with
  | driver => cases other <;> simp [edit, node?]
  | psoc i =>
    cases other with
    | driver => simp [edit, node?, editPsoc]
    | psoc k =>
      simp only [edit, node?, editPsoc, List.getElem?_modify, NodeId.psoc.injEq]
      by_cases same : i = k <;> cases driver.psocs[k]? <;> simp [same]
    | vdev k l =>
      simp only [edit, node?, editPsoc, List.getElem?_modify, reduceCtorEq,
        if_false]
      by_cases same : i = k <;> cases driver.psocs[k]? <;> simp [same]
  | vdev i j =>
    cases other with
    | driver => simp [edit, node?, editPsoc]
    | psoc k =>
      simp only [edit, node?, editPsoc, List.getElem?_modify, reduceCtorEq,
        if_false]
      by_cases same : i = k <;> cases driver.psocs[k]? <;> simp [same]
    | vdev k l =>
      simp only [edit, node?, editPsoc, List.getElem?_modify,
        NodeId.vdev.injEq]
      by_cases same : i = k <;> by_cases here : j = l <;>
        cases driver.psocs[k]? <;> simp [same, here]

@[simp] theorem node?_edit_same (driver : Driver) (node : NodeId)
    (change : Node → Node) :
    (driver.edit node change).node? node = (driver.node? node).map change := by
  simp [node?_edit]

theorem node?_edit_other (driver : Driver) {node other : NodeId}
    (change : Node → Node) (apart : node ≠ other) :
    (driver.edit node change).node? other = driver.node? other := by
  simp [node?_edit, apart]

end Driver

end VendorModules.Dsc
