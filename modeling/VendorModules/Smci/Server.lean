import VendorModules.Lib.Kref
import VendorModules.Lib.Transition
import VendorModules.Smci.Arguments
import Mathlib.Data.BitVec
import Mathlib.Logic.Function.Basic

/-!
# A callback server

The secure world calls back objects of a userspace server. The invoke thread of such a call queues a
transaction, which server threads pick and answer. Each step is one that a thread takes under
`si_mutex`, or what it does by itself until it takes the mutex the next time.
-/

namespace VendorModules.Smci

open Function Lib

abbrev ContextId : Type := BitVec 32

/-- `CONTEXT_ID_ANY`, which is also the context ID of release requests. -/
def contextIdAny : ContextId := 0

def EINVAL : Int := 22
def EFAULT : Int := 14

/-- `enum state` -/
inductive Processing
  | new
  | pending
  | processing
  | processed
  | timedOut
  deriving DecidableEq

/-- `struct cb_txn` -/
structure Txn where
  contextId : ContextId := contextIdAny
  processing : Processing := .new
  kref : Kref := {}
  completion : Nat := 0
  errno : Int := 0
  args : Args := {}

/-- `struct smcinvoke_accept` with `has_resp`. The arguments are missing where they cannot be
copied. -/
structure Response where
  txnId : BitVec 64
  result : Int
  args : Option (Nat → UArg)

/-- The `errno` of a response, and what its parsing does. -/
def Response.parse (r : Response) (u : Args) : Int × MarshalOut :=
  if r.result = 0 then
    match r.args with
    | none => (-EFAULT, { args := u, failed := true })
    | some args =>
      let out := marshalOutCbReq u args
      (if out.failed then -EINVAL else 0, out)
  else (r.result, { args := u, failed := true })

/-- Where a thread is in `cbo_dispatch` and after it, or in `process_accept_req`. -/
inductive Thread
  | idle
  | allocated (id : ContextId) (t : Nat)
  | waiting (id : ContextId) (t : Nat)
  /-- The transaction has not timed out: its `errno` is to be read. -/
  | answered (id : ContextId) (t : Nat)
  | failing (id : ContextId) (t : Nat) (errno : Int)
  /-- About to put a transaction that is not, or no longer, queued. -/
  | dequeued (id : ContextId) (t : Nat) (errno : Int)
  | returned (id : ContextId) (errno : Int)
  | notifying (id : ContextId) (t : Nat) (status : Bool)
  | parsing (t : Nat) (r : Response)
  | submitting (t : Nat) (own : List Object) (errno : Int)
  | settling (t : Nat) (own : List Object) (errno : Int) (accepted : Bool)
  | accepting
  | picked (t : Nat)
  /-- In `dequeue_and_put_txn` for a release request. -/
  | withdrawing (t : Nat) (ok : Bool)
  | dropping (t : Nat) (ok : Bool)
  | putting (t : Nat) (ok : Bool)

/-- Whether the thread is in `process_accept_req`. -/
def Thread.serving : Thread → Bool
  | parsing .. | submitting .. | settling .. | accepting | picked .. | withdrawing .. | dropping ..
  | putting .. => true
  | _ => false

/-- The context of the call that the thread has going on, from `cbo_dispatch` until the secure world
has been told its outcome. -/
def Thread.context : Thread → Option ContextId
  | allocated id _ | waiting id _ | answered id _ | failing id _ _ | dequeued id _ _ | returned id _
  | notifying id _ _ => if id = contextIdAny then none else some id
  | _ => none

structure State where
  txns : Nat → Txn := fun _ => {}
  allocated : Nat := 0
  /-- `cb_tx_list` -/
  queue : List Nat := []
  dead : Bool := false
  threads : List Thread := []
  /-- A transaction has been used that was not there any more. -/
  touchedFreed : Bool := false
  /-- The references taken while responses were parsed, those put, and those left to the secure
  world. -/
  taken : List Object := []
  released : List Object := []
  handed : List Object := []
  /-- The objects of the responses that were accepted, and of the calls that returned success. -/
  accepted : List (Nat × List Object) := []
  succeeded : List (Nat × List Object) := []
  /-- Of each response that was undone its objects, and the objects that were put. -/
  undone : List (List Object × List Object) := []

namespace Txn

variable (x : Txn)

/-- `set_txn_state_locked` -/
def setState : Processing → Option Txn
  | .processing => if x.processing ≠ .pending then none else some { x with processing := .processing }
  | .processed => if x.processing ≠ .processing then none else some { x with processing := .processed }
  | .timedOut =>
    if x.processing ≠ .pending ∧ x.processing ≠ .processing then none
    else some { x with processing := .timedOut }
  | _ => none

/-- What `get_txn_for_state_transition_locked` looks for. -/
def ready : Processing → Bool
  | .processing => x.processing = .pending
  | .processed => x.processing = .processing
  | _ => false

end Txn

namespace State

variable (s : State)

def dangling (t : Nat) : Bool := s.allocated ≤ t || (s.txns t).kref.freed ≠ 0

def touch (t : Nat) : State := { s with touchedFreed := s.touchedFreed || s.dangling t }

def touchQueue : State := { s with touchedFreed := s.touchedFreed || s.queue.any s.dangling }

def write (t : Nat) (x : Txn) : State := { s.touch t with txns := update s.txns t x }

def goto (k : Nat) (thread : Thread) : State := { s with threads := s.threads.set k thread }

def putTxn (t : Nat) : State := s.write t { s.txns t with kref := (s.txns t).kref.put }

def complete (t : Nat) : State :=
  s.write t { s.txns t with completion := (s.txns t).completion + 1 }

/-- `get_txn_for_state_transition_locked`, less the reference it takes. -/
def findTxn (id : ContextId) (state : Processing) : Option Nat :=
  (s.queue.find? fun t => (id = contextIdAny || (s.txns t).contextId = id) &&
    (s.txns t).ready state).filter fun t => (s.txns t).kref.refs ≠ 0

/-- `txn_alloc` and `dispatcher_marshal_in`, where nothing can have been `copied`. -/
def alloc (k : Nat) (id : ContextId) (args : Args) (copied : Bool) : State :=
  { s with
    txns := update s.txns s.allocated { contextId := id, args := args }
    allocated := s.allocated + 1 }.goto k
    (if copied then .allocated id s.allocated else .dequeued id s.allocated (-EINVAL))

def queueTxn (k : Nat) (id : ContextId) (t : Nat) : State :=
  if s.dead then s.goto k (.dequeued id t (-EINVAL))
  else
    { s.write t { s.txns t with processing := .pending } with queue := t :: s.queue }.goto k
      (if id = contextIdAny then .idle else .waiting id t)

/-- The locked part of `dequeue_and_put_txn`. -/
def dequeueTxn (t : Nat) : State :=
  if (s.txns t).processing ≠ .new then { s.touch t with queue := s.queue.erase t } else s.touch t

def timeOut (k : Nat) (id : ContextId) (t : Nat) : State :=
  match (s.txns t).setState .timedOut with
  | some x => (s.write t x).goto k (.failing id t (-EINVAL))
  | none => (s.touch t).goto k (.answered id t)

/-- The end of `cbo_dispatch` after `set_txn_state` has failed. -/
def collect (k : Nat) (id : ContextId) (t : Nat) : State :=
  if (s.txns t).errno = 0 then
    { s.touch t with succeeded := s.succeeded ++ [(t, (s.txns t).args.oo)] }.goto k (.returned id 0)
  else (s.touch t).goto k (.failing id t (s.txns t).errno)

/-- `dequeue_txn_by_id` -/
def dequeueById (k : Nat) (id : ContextId) (status : Bool) : State :=
  match s.queue.find? fun t => (s.txns t).contextId = id with
  | some t => { s.touchQueue with queue := s.queue.erase t }.goto k (.notifying id t status)
  | none => s.touchQueue.goto k .idle

/-- What `cbo_notify` does with the transaction that it has dequeued. -/
def notify (t : Nat) (status : Bool) : State :=
  let oo := (s.txns t).args.oo
  { s.putTxn t with
    released := s.released ++ oo.flatMap fun o => (if status then o.putUnlessUser else []) ++ o.put
    handed := s.handed ++ oo.flatMap fun o => if status then [] else o.putUnlessUser }

/-- `get_txn_for_state_transition` for a response. -/
def respond (k : Nat) (r : Response) : State :=
  if r.txnId = 0 then s.goto k .accepting
  else
    match s.findTxn (r.txnId.setWidth 32) .processed with
    | some t =>
      (s.touchQueue.write t { s.txns t with kref := (s.txns t).kref.get }).goto k (.parsing t r)
    | none => s.touchQueue.goto k .accepting

def parse (k t : Nat) (r : Response) : State :=
  let result := r.parse (s.txns t).args
  { s.write t { s.txns t with args := result.2.args, errno := result.1 } with
    taken := s.taken ++ result.2.taken
    released := s.released ++ result.2.released }.goto k
    (.submitting t result.2.args.oo result.1)

/-- `set_txn_state(cb_txn, XST_PROCESSED)` -/
def submit (k t : Nat) (own : List Object) (errno : Int) : State :=
  match (s.txns t).setState .processed with
  | some x =>
    { s.write t x with
      accepted := if errno = 0 then s.accepted ++ [(t, own)] else s.accepted }.goto k
      (.settling t own errno true)
  | none => (s.touch t).goto k (.settling t own errno false)

def undo (t : Nat) (own : List Object) : State :=
  { s.touch t with
    released := s.released ++ putAll (s.txns t).args.oo
    undone := s.undone ++ [(own, (s.txns t).args.oo)] }

def settle (k t : Nat) (own : List Object) (errno : Int) (accepted : Bool) : State :=
  ((if accepted then s.complete t else if errno = 0 then s.undo t own else s).putTxn t).goto k
    .accepting

/-- `wait_for_pending_txn`, when it does not sleep. -/
def pick (k : Nat) : Option State :=
  match s.findTxn contextIdAny .processing with
  | some t =>
    let x := { s.txns t with kref := (s.txns t).kref.get }
    some ((s.touchQueue.write t ((x.setState .processing).getD x)).goto k (.picked t))
  | none => none

def construct (k t : Nat) (ok : Bool) : State :=
  if (s.txns t).contextId = contextIdAny then (s.touch t).goto k (.withdrawing t ok)
  else if ok then (s.touch t).goto k (.putting t true)
  else (s.complete t).goto k (.putting t false)

/-- One round of the loop of `server_release`. -/
def terminate (s : State) (t : Nat) : State :=
  if (s.txns t).processing = .pending ∨ (s.txns t).processing = .processing then
    if (s.txns t).contextId = contextIdAny then
      if (s.txns t).processing = .pending then
        { s.write t { s.txns t with kref := (s.txns t).kref.free } with queue := s.queue.erase t }
      else s.touch t
    else s.complete t
  else s.touch t

def serverRelease : State := s.queue.foldl terminate { s with dead := true }

def unused (id : ContextId) : Prop :=
  id ≠ contextIdAny ∧ ∀ thread ∈ s.threads, thread.context ≠ some id

instance (id : ContextId) : Decidable (s.unused id) :=
  inferInstanceAs (Decidable (_ ∧ ∀ thread ∈ s.threads, _))

end State

inductive Act
  /-- `cbo_dispatch`. -/
  | dispatch (id : ContextId) (args : Args) (copied : Bool)
  /-- `cbo_release` of an object with `notify_on_release`. -/
  | release (copied : Bool)
  | queue
  /-- Of a thread that has been killed, or whose completion is complete. -/
  | wake (killed : Bool)
  | collect
  | dequeue
  | put
  | notify (status : Bool)
  /-- The secure world is not to be told about a call that has failed. -/
  | forget
  /-- `process_accept_req` -/
  | accept (r : Option Response)
  | parse
  | submit
  | settle
  | interrupt
  | pick
  | construct (ok : Bool)

inductive Move
  | thread (k : Nat) (act : Act)
  /-- `server_release`, when no server thread is in the kernel any more. -/
  | close

namespace State

def act (s : State) (k : Nat) : Thread → Act → Option State
  | .idle, .dispatch id args copied => if s.unused id then some (s.alloc k id args copied) else none
  | .idle, .release copied => some (s.alloc k contextIdAny {} copied)
  | .allocated id t, .queue => some (s.queueTxn k id t)
  | .waiting id t, .wake killed =>
    if killed || 0 < (s.txns t).completion then some (s.timeOut k id t) else none
  | .answered id t, .collect => some (s.collect k id t)
  | .failing id t errno, .dequeue => some ((s.dequeueTxn t).goto k (.dequeued id t errno))
  | .dequeued id t errno, .put =>
    some ((s.putTxn t).goto k (if id = contextIdAny then .idle else .returned id errno))
  | .returned id _, .notify status => some (s.dequeueById k id status)
  | .returned _ errno, .forget => if errno = 0 then none else some (s.goto k .idle)
  | .notifying _ t status, .put => some ((s.notify t status).goto k .idle)
  | .idle, .accept none => if s.dead then none else some (s.goto k .accepting)
  | .idle, .accept (some r) => if s.dead then none else some (s.respond k r)
  | .parsing t r, .parse => some (s.parse k t r)
  | .submitting t own errno, .submit => some (s.submit k t own errno)
  | .settling t own errno accepted, .settle => some (s.settle k t own errno accepted)
  | .accepting, .interrupt => some (s.goto k .idle)
  | .accepting, .pick => s.pick k
  | .picked t, .construct ok => some (s.construct k t ok)
  | .withdrawing t ok, .dequeue => some ((s.dequeueTxn t).goto k (.dropping t ok))
  | .dropping t ok, .put => some ((s.putTxn t).goto k (.putting t ok))
  | .putting t ok, .put => some ((s.putTxn t).goto k (if ok then .idle else .accepting))
  | _, _ => none

end State

def step (s : State) : Move → Option State
  | .thread k act =>
    match s.threads[k]? with
    | some thread => s.act k thread act
    | none => none
  | .close =>
    if s.dead = false ∧ s.threads.all (!·.serving) then some s.serverRelease else none

def Initial (s : State) : Prop := ∃ n, s = { threads := List.replicate n .idle }

end VendorModules.Smci
