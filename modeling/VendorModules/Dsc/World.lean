import VendorModules.Dsc.Transitions
import VendorModules.Lib.Transition

namespace VendorModules.Dsc

open Lib

/-- How far the owner of a node's active transition has come with the node's
`wait_for_ops`. -/
inductive Flush
  | idle
  | visiting (todo : List NodeId)
  | blocked (node : NodeId) (todo : List NodeId)
  | returned
  deriving DecidableEq, Repr

namespace Flush

def pending : Flush → List NodeId
  | .visiting todo => todo
  | .blocked node todo => node :: todo
  | _ => []

def running : Flush → Bool
  | .visiting _ | .blocked _ _ => true
  | _ => false

def signalled (driver : Driver) : Flush → Bool
  | .blocked here _ => (driver.node? here).any fun found => found.ops.event
  | _ => false

end Flush

structure World where
  driver : Driver
  flush : NodeId → Flush

/-- One step of some thread: a section under the driver's lock, or the return from an
event wait. -/
inductive Move
  | transStart (platform : Platform) (node : NodeId) (desc : String)
  | transStartWait (platform : Platform) (node : NodeId) (desc : String)
  | transStop (node : NodeId)
  | opStart (platform : Platform) (node : NodeId)
  | opStop (node : NodeId)
  /-- The owner of the node's active transition calls the node's `wait_for_ops`. -/
  | waitForOps (node : NodeId)
  /-- That wait takes the lock and looks at the next node of its list. -/
  | sample (node : NodeId)
  /-- That wait returns from the event it is blocked on. -/
  | wake (node : NodeId)
  /-- Some other wait (`dsc_vdev_wait_for_uptree_ops`, or a wait of a thread that owns
  nothing here) looks at the node and resets its event. -/
  | otherSample (node : NodeId)
  deriving DecidableEq, Repr

namespace World

def transStart (driver : Driver) (platform : Platform) (desc : String) :
    NodeId → QdfStatus × Driver
  | .driver => driver.transStart desc
  | .psoc i => driver.psocTransStart i desc
  | .vdev i j => driver.vdevTransStart platform i j desc

def transStartWait (driver : Driver) (platform : Platform) (desc : String) :
    NodeId → Option QdfStatus × Driver
  | .driver => driver.transStartWait desc
  | .psoc i => driver.psocTransStartWait i desc
  | .vdev i j => driver.vdevTransStartWait platform i j desc

def transStop (driver : Driver) : NodeId → Driver
  | .driver => driver.transStop
  | .psoc i => driver.psocTransStop i
  | .vdev i j => driver.vdevTransStop i j

def stopTarget (driver : Driver) : NodeId → NodeId
  | .psoc i => if driver.ActiveAt (.psoc i) then .psoc i else .driver
  | node => node

def setFlush (world : World) (node : NodeId) (flush : Flush) : World :=
  { world with flush := Function.update world.flush node flush }

/-- What the callers and the event promise: a stop comes from the owner of the
transition it ends, which is not inside a wait; an operation that stops is in flight;
a wait returns only when the event was set since its last reset. -/
def Allowed (world : World) : Move → Prop
  | .transStop node =>
    (world.driver.node? node).isSome ∧
      world.driver.ActiveAt (stopTarget world.driver node) ∧
        (world.flush (stopTarget world.driver node)).running = false
  | .opStop node => (world.driver.node? node).any fun found => 0 < found.ops.count
  | .waitForOps node => world.driver.ActiveAt node ∧ world.flush node = .idle
  | .wake node => (world.flush node).signalled world.driver
  | _ => True

def sampleNext (world : World) (node : NodeId) : World :=
  match world.flush node with
  | .visiting [] => world.setFlush node .returned
  | .visiting (here :: todo) =>
    { world with driver := (world.driver.sampleOps here).2 }.setFlush node
      (if (world.driver.sampleOps here).1 then .blocked here todo else .visiting todo)
  | _ => world

def wakeUp (world : World) (node : NodeId) : World :=
  match world.flush node with
  | .blocked _ todo => world.setFlush node (.visiting todo)
  | _ => world

def apply (world : World) : Move → World
  | .transStart platform node desc =>
    { world with driver := (transStart world.driver platform desc node).2 }
  | .transStartWait platform node desc =>
    { world with driver := (transStartWait world.driver platform desc node).2 }
  | .transStop node =>
    { world with driver := transStop world.driver node }.setFlush
      (stopTarget world.driver node) .idle
  | .opStart platform node =>
    { world with driver := (world.driver.opStart platform node).2 }
  | .opStop node => { world with driver := world.driver.opStop node }
  | .waitForOps node =>
    world.setFlush node (.visiting (world.driver.waitList node))
  | .sample node => world.sampleNext node
  | .wake node => world.wakeUp node
  | .otherSample node => { world with driver := (world.driver.sampleOps node).2 }

/-- A tree as its `create` functions leave it: one psoc for each entry, which is the
number of its vdevs. Nothing runs and nobody waits. -/
def create (vdevs : List Nat) : World where
  driver :=
    { toNode := .init
      psocs := vdevs.map fun count =>
        { toNode := .init, vdevs := List.replicate count .init } }
  flush := fun _ => .idle

def Fresh (world : World) : Prop := ∃ vdevs, world = create vdevs

def Step (world next : World) : Prop :=
  ∃ move, world.Allowed move ∧ next = world.apply move

instance (world : World) (move : Move) : Decidable (world.Allowed move) := by
  cases move <;> unfold Allowed <;> infer_instance

def run (world : World) : List Move → Option World
  | [] => some world
  | move :: moves =>
    if world.Allowed move then (world.apply move).run moves else none

theorem Fresh.node?_eq {world : World} (fresh : world.Fresh) {node : NodeId}
    {found : Node} (there : world.driver.node? node = some found) : found = .init := by
  obtain ⟨vdevs, rfl⟩ := fresh
  cases node with
  | driver => cases there; rfl
  | psoc i =>
    obtain ⟨_, _, rfl⟩ := by simpa [create, Driver.node?] using there
    rfl
  | vdev i j =>
    obtain ⟨_, _, _, rfl⟩ := by
      simpa [create, Driver.node?, Option.bind_eq_some_iff,
        List.getElem?_replicate] using there
    rfl

theorem Fresh.psoc_eq {world : World} (fresh : world.Fresh) {psoc : Psoc}
    (member : psoc ∈ world.driver.psocs) :
    psoc.toNode = .init ∧ ∀ vdev ∈ psoc.vdevs, vdev = .init := by
  obtain ⟨vdevs, rfl⟩ := fresh
  obtain ⟨count, _, rfl⟩ := by simpa [create] using member
  exact ⟨rfl, fun vdev within => List.eq_of_mem_replicate within⟩

theorem run_reachable {step : World → World → Prop} {moves : List Move} {world : World}
    (reached : Reachable Fresh step world)
    (steps : ∀ before : World, ∀ move ∈ moves, before.Allowed move →
      step before (before.apply move))
    (taken : (world.run moves).isSome) :
    Reachable Fresh step ((world.run moves).get taken) := by
  induction moves generalizing world with
  | nil => exact reached
  | cons move moves ih =>
    by_cases allowed : world.Allowed move
    · have rest : world.run (move :: moves) = (world.apply move).run moves := by
        simp [run, allowed]
      simp only [rest] at taken ⊢
      exact ih (reached.next (steps world move (by simp) allowed))
        (fun before other member => steps before other (by simp [member])) taken
    · simp [run, allowed] at taken

end World

end VendorModules.Dsc
