import Mathlib

namespace VendorModules.Synx

/-! The global table of synx handles, which several cores share. -/

def SYNX_GLOBAL_MAX_OBJS : Nat := 4096

def SYNX_GLOBAL_MAX_PARENTS : Nat := 4

def SYNX_STATE_INVALID : Nat := 0
def SYNX_STATE_ACTIVE : Nat := 1
def SYNX_STATE_SIGNALED_SUCCESS : Nat := 2
def SYNX_STATE_SIGNALED_CANCEL : Nat := 4
def SYNX_STATE_SIGNALED_SSR : Nat := 6
def SYNX_STATE_SIGNALED_MAX : Nat := 64

/-- `SYNX_HANDLE_INDEX_MASK`, 16 bits wide. -/
def handleIndex (handle : Nat) : Nat := handle % 2 ^ 16

inductive CoreId
  | apss
  | nsp
  | eva
  | iris
  | icp
  | soccp
  deriving DecidableEq, Repr

def CoreId.all : List CoreId := [.apss, .nsp, .eva, .iris, .icp, .soccp]

/-- The `parents` array of an entry. Index 0 is never handed out and marks a free slot. -/
structure Parents where
  slots : List Nat
  size : slots.length = SYNX_GLOBAL_MAX_PARENTS

def Parents.none : Parents := ⟨[0, 0, 0, 0], rfl⟩

/-- Puts `p_idx` in the first slot that holds `old`, if one does. -/
def Parents.replace (parents : Parents) (old new : Nat) : Parents :=
  ⟨parents.slots.replace old new, by rw [List.length_replace, parents.size]⟩

structure Coredata where
  status : Nat
  handle : Nat
  refcount : Nat
  numChild : Nat
  subscribers : CoreId → Bool
  waiters : CoreId → Bool
  parents : Parents

/-- What `memset` leaves. -/
def Coredata.zero : Coredata where
  status := 0
  handle := 0
  refcount := 0
  numChild := 0
  subscribers := fun _ => false
  waiters := fun _ => false
  parents := .none

def decr16 (n : Nat) : Nat := (n + (2 ^ 16 - 1)) % 2 ^ 16

def incr16 (n : Nat) : Nat := (n + 1) % 2 ^ 16

def isValidIdx (idx : Nat) : Bool := idx < SYNX_GLOBAL_MAX_OBJS

def Coredata.active (handle : Nat) : Coredata where
  status := SYNX_STATE_ACTIVE
  handle := handle
  refcount := 1
  numChild := 0
  subscribers := fun id => id = .apss
  waiters := fun _ => false
  parents := .none

/-- `synx_global_init_coredata` on the entry, under its lock. -/
def initCoredata (obj : Coredata) (handle : Nat) : Option Coredata :=
  if obj.status ≠ 0 ∨ obj.refcount ≠ 0 ∨ (∃ id ∈ CoreId.all, obj.subscribers id = true) ∨
      obj.handle ≠ 0 ∨ obj.parents.slots.headD 0 ≠ 0 then none
  else some (.active handle)

/-- `synx_global_test_status_set_wait` on the entry, under its lock. -/
def testStatusSetWait (obj : Coredata) (id : CoreId) : Coredata × Nat :=
  if obj.status = SYNX_STATE_ACTIVE ∨ obj.numChild ≠ 0 then
    ({ obj with waiters := fun id' => id' = id || obj.waiters id' }, SYNX_STATE_ACTIVE)
  else (obj, obj.status)

def isError (status : Nat) : Bool :=
  SYNX_STATE_SIGNALED_SUCCESS < status && status ≤ SYNX_STATE_SIGNALED_MAX

/-- What the locked part of `synx_global_update_status_core` leaves behind. -/
structure Signaled where
  obj : Coredata
  clear : Bool
  /-- The handle and the status that make up the 64-bit `data`. -/
  data : Nat × Nat
  waitCores : CoreId → Bool
  hParents : List Nat

def mergedStatus (own status : Nat) : Nat :=
  if own = SYNX_STATE_ACTIVE ∨ isError status then status else own

/-- The locked part of `synx_global_update_status_core`. -/
def updateStatusLocked (obj : Coredata) (status : Nat) : Signaled :=
  if obj.numChild ≠ 0 then
    let numChild := obj.numChild - 1
    let own := mergedStatus obj.status status
    if numChild = 0 then
      let refcount := decr16 obj.refcount
      { obj := if refcount = 0 then .zero
          else { obj with
            numChild := numChild
            status := own
            waiters := fun _ => false
            refcount := refcount }
        clear := refcount = 0
        data := (obj.handle, own)
        waitCores := obj.waiters
        hParents := obj.parents.slots }
    else
      { obj := { obj with numChild := numChild, status := own }
        clear := false
        data := (0, 0)
        waitCores := fun _ => false
        hParents := [] }
  else
    { obj := { obj with status := status, waiters := fun _ => false }
      clear := false
      data := (obj.handle, status)
      waitCores := obj.waiters
      hParents := obj.parents.slots }

/-- An `ipclite` message to a core. -/
structure Message where
  core : CoreId
  handle : Nat
  status : Nat
  deriving DecidableEq, Repr

/-- The messages to the waiting cores. `synx_signal` takes care of the core that signals,
so only a subsystem restart sends one to it. -/
def Signaled.messages (signaled : Signaled) (status : Nat) : List Message :=
  if signaled.data = (0, 0) then []
  else (CoreId.all.filter fun id =>
      signaled.waitCores id && (status == SYNX_STATE_SIGNALED_SSR || id != .apss)).map
    fun id => ⟨id, signaled.data.1, signaled.data.2⟩

/-- What `synx_global_update_status` decides under the lock before it signals. -/
inductive UpdateCheck
  | invalid
  | already
  | proceed
  deriving DecidableEq, Repr

def updateStatusCheck (obj : Coredata) : UpdateCheck :=
  if obj.numChild ≠ 0 then .invalid
  else if obj.status ≠ SYNX_STATE_ACTIVE then .already
  else .proceed

/-- The locals of `synx_global_merge`, with `idx_list` cut where the loop stands. -/
structure Merging where
  pIdx : Nat
  linked : List Nat
  rest : List Nat
  numChild : Nat
  parentStatus : Nat

def Merging.idxList (merging : Merging) : List Nat := merging.linked ++ merging.rest

def linkParent (obj : Coredata) (pIdx : Nat) : Coredata :=
  { obj with parents := obj.parents.replace 0 pIdx }

def hasFreeSlot (obj : Coredata) : Bool := obj.parents.slots.contains 0

/-- `num_child` after a member. -/
def countMember (numChild : Nat) (obj : Coredata) : Nat :=
  let numChild := if obj.status = SYNX_STATE_ACTIVE then numChild + 1 else numChild
  if obj.status ≠ SYNX_STATE_ACTIVE ∧ obj.numChild ≠ 0 then numChild + 1 else numChild

/-- `parent_status` after a member. -/
def statusWith (parentStatus : Nat) (obj : Coredata) : Nat :=
  if obj.status = SYNX_STATE_ACTIVE then parentStatus
  else if isError obj.status then obj.status
  else if parentStatus = SYNX_STATE_ACTIVE then obj.status
  else parentStatus

/-- The last locked section of `synx_global_merge`. -/
def addChildren (obj : Coredata) (merging : Merging) : Coredata :=
  let numChild := (obj.numChild + merging.numChild) % 2 ^ 16
  { obj with
    numChild := numChild
    refcount := if numChild ≠ 0 then incr16 obj.refcount else obj.refcount
    status := merging.parentStatus }

def unlinkParent (obj : Coredata) (pIdx : Nat) : Coredata :=
  { obj with parents := obj.parents.replace pIdx 0 }

end VendorModules.Synx
