import Mathlib

namespace VendorModules.HwFence

def hashAMult : BitVec 64 := 4969

def hashCMult : BitVec 64 := 907

def invalidParentFence : BitVec 64 := 0xFFFFFFFFFFFFFFFF

def maxJoinParents : Nat := 3

/-- `HW_FENCE_FCTL_REFCOUNT`: held by the fence controller for signaling. -/
def fctlRefcount : BitVec 32 := 0x80000000

/-- `HW_FENCE_DMA_FENCE_REFCOUNT` -/
def dmaFenceRefcount : BitVec 32 := 0x40000000

/-- `HW_FENCE_HLOS_REFCOUNT_MASK` -/
def hlosRefcountMask : BitVec 32 := 0x3FFFFFFF

/-- The step of the search for a fence: `HW_FENCE_FIND_THRESHOLD`. -/
def findThreshold : Nat := 10

/-- `struct msm_hw_fence`; of its flags `MSM_HW_FENCE_FLAG_SIGNAL` and
`MSM_HW_FENCE_FLAG_INTERNAL_OWNED`. -/
structure MsmHwFence where
  valid : Bool := false
  error : BitVec 32 := 0
  ctxId : BitVec 64 := 0
  seqId : BitVec 64 := 0
  waitClientMask : BitVec 64 := 0
  fenceAllocator : BitVec 32 := 0
  signal : Bool := false
  internalOwned : Bool := false
  refcount : BitVec 32 := 0
  parentsCnt : Nat := 0
  pendingChildCnt : BitVec 32 := 0
  parentList : List (BitVec 64) := List.replicate maxJoinParents invalidParentFence
  deriving DecidableEq, Repr

/-- `_cleanup_hw_fence`: everything but `valid`. -/
def MsmHwFence.cleanup (hwFence : MsmHwFence) : MsmHwFence := { valid := hwFence.valid }

def MsmHwFence.released (hwFence : MsmHwFence) : MsmHwFence :=
  if hwFence.refcount = 0 then { hwFence.cleanup with valid := false } else hwFence

/-- How many fences the table has: `hw_fences_tbl_cnt`. The size of the table in bytes fits into
32 bits. -/
structure Size where
  cnt : Nat
  pos : 0 < cnt
  small : cnt < 2 ^ 31

structure DriverData where
  hwFencesTbl : Nat → MsmHwFence
  hlosKeyTbl : Nat → BitVec 64

structure Triple where
  context : BitVec 64
  seqno : BitVec 64
  hlosKey : BitVec 64
  deriving DecidableEq, Repr

/-- The result is an `int`. -/
def calculateHash (context seqno : BitVec 64) (mSize : Nat) : BitVec 64 :=
  let bMultiplier := context + (context - 1)
  let hash := (hashAMult * seqno * bMultiplier + hashCMult * context) % BitVec.ofNat 64 mSize
  (hash.truncate 32).signExtend 64

/-- `_hw_fence_lookup_next` -/
def lookupNext (mSize : Nat) (hash : BitVec 64) (incr : Nat) : BitVec 64 :=
  (hash + BitVec.ofNat 64 incr) % BitVec.ofNat 64 mSize

/-- The rounds of `for_each_hw_fence` that are left, at a place of the table. The body says whether
it has found its fence there, and what it is. -/
def forEachHwFence {α : Type} (mSize : Nat) (body : Nat → Option α) :
    Nat → BitVec 64 → Option (Nat × α)
  | 0, _ => none
  | left + 1, hash =>
    match body hash.toNat with
    | some found => some (hash.toNat, found)
    | none => forEachHwFence mSize body left (lookupNext mSize hash 1)

/-- `for_each_hw_fence` with `_hw_fence_iterator_init` -/
def iterate {α : Type} (size : Size) (context seqno : BitVec 64) (startStep endStep : Nat)
    (body : Nat → Option α) : Option (Nat × α) :=
  if startStep ≥ endStep ∨ endStep > size.cnt then none
  else forEachHwFence size.cnt body (endStep - startStep)
    (lookupNext size.cnt (calculateHash context seqno size.cnt) startStep)

namespace DriverData

def init : DriverData where
  hwFencesTbl := fun _ => {}
  hlosKeyTbl := fun _ => 0

def store (data : DriverData) (hash : Nat) (hwFence : MsmHwFence) : DriverData :=
  { data with hwFencesTbl := Function.update data.hwFencesTbl hash hwFence }

def storeKey (data : DriverData) (hash : Nat) (hlosKey : BitVec 64) : DriverData :=
  { data with hlosKeyTbl := Function.update data.hlosKeyTbl hash hlosKey }

def hwFenceMatch (data : DriverData) (triple : Triple) (hash : Nat) : Bool :=
  (data.hwFencesTbl hash).ctxId == triple.context && (data.hwFencesTbl hash).seqId == triple.seqno
    && data.hlosKeyTbl hash == triple.hlosKey

/-- `_unreserve_hw_fence`; there is no outcome where it returns an error. -/
def unreserve (data : DriverData) (hash : Nat) : Option DriverData :=
  let hwFence := data.hwFencesTbl hash
  if hwFence.refcount &&& hlosRefcountMask ≠ 0 then
    let hwFence := { hwFence with refcount := hwFence.refcount - 1 }
    let data := data.store hash hwFence.released
    some (if hwFence.refcount = 0 then data.storeKey hash 0 else data)
  else none

/-- `hw_fence_destroy_refcount` -/
def destroyRefcount (size : Size) (data : DriverData) (hash : BitVec 64) (ref : BitVec 32) :
    Option DriverData :=
  if hash.toNat ≥ size.cnt then none
  else
    let hwFence := data.hwFencesTbl hash.toNat
    if hwFence.refcount &&& ref ≠ 0 then
      let hwFence := { hwFence with refcount := hwFence.refcount &&& ~~~ref }
      some (data.store hash.toNat hwFence.released)
    else none

/-- `_reserve_hw_fence` -/
def reserve (data : DriverData) (clientId : BitVec 32) (triple : Triple)
    (pendingChildCnt : BitVec 32) (hash : Nat) : DriverData :=
  let hwFence := { (data.hwFencesTbl hash).cleanup with
    valid := true
    ctxId := triple.context
    seqId := triple.seqno
    fenceAllocator := clientId
    refcount := fctlRefcount + 1
    pendingChildCnt }
  (data.store hash hwFence).storeKey hash triple.hlosKey

def fenceFound (data : DriverData) (hash : Nat) : Option DriverData :=
  let hwFence := data.hwFencesTbl hash
  if hwFence.refcount &&& hlosRefcountMask = hlosRefcountMask then none
  else some (data.store hash { hwFence with refcount := hwFence.refcount + 1 })

/-- The body of the loop of `_hw_fence_lookup_and_create_range`: whether the place is free, or has
the fence already. -/
def createHere (data : DriverData) (triple : Triple) (hash : Nat) : Option Bool :=
  if !(data.hwFencesTbl hash).valid then some true
  else if data.hwFenceMatch triple hash then some false
  else none

/-- `_hw_fence_lookup_and_create_range` over the whole table, with or without
`MSM_HW_FENCE_FLAG_CREATE_SIGNALED`. -/
def lookupAndCreate (size : Size) (data : DriverData) (clientId : BitVec 32) (triple : Triple)
    (pendingChildCnt : BitVec 32) (createSignaled : Bool) : DriverData × Option Nat :=
  match iterate size triple.context triple.seqno 0 size.cnt (data.createHere triple) with
  | none => (data, none)
  | some (hash, true) => (data.reserve clientId triple pendingChildCnt hash, some hash)
  | some (hash, false) =>
    if createSignaled then
      match data.fenceFound hash with
      | some data => (data, some hash)
      | none => (data, none)
    else (data, none)

/-- The body of the loop of `_hw_fence_lookup_and_process_range`. -/
def processHere (data : DriverData) (triple : Triple) (hash : Nat) : Option Unit :=
  if data.hwFenceMatch triple hash then some () else none

/-- `_hw_fence_lookup_and_process_range` -/
def lookupAndProcessRange (size : Size) (data : DriverData) (triple : Triple)
    (startStep endStep : Nat) (processFn : DriverData → Nat → Option DriverData) :
    DriverData × Option Nat :=
  match iterate size triple.context triple.seqno startStep endStep (data.processHere triple) with
  | none => (data, none)
  | some (hash, ()) =>
    match processFn data hash with
    | some data => (data, some hash)
    | none => (data, none)

/-- `_hw_fence_lookup_and_process` -/
def lookupAndProcess (size : Size) (data : DriverData) (triple : Triple)
    (processFn : DriverData → Nat → Option DriverData) : DriverData × Option Nat :=
  data.lookupAndProcessRange size triple 0 size.cnt processFn

/-- `msm_hw_fence_find` -/
def find (size : Size) (data : DriverData) (triple : Triple) : DriverData × Option Nat :=
  data.lookupAndProcess size triple fenceFound

/-- `hw_fence_destroy` -/
def destroy (size : Size) (data : DriverData) (triple : Triple) : DriverData × Option Nat :=
  data.lookupAndProcess size triple unreserve

/-- What the search of `hw_fence_find_with_dma_fence` comes to: the fence, that the dma-fence has
been signaled, or neither. -/
inductive Search
  | backed (hash : Nat)
  | signaled
  | missing
  deriving DecidableEq, Repr

/-- The loop of `hw_fence_find_with_dma_fence` from a step on, with what
`dma_fence_is_signaled` says after each range. -/
def findRanges (size : Size) (triple : Triple) (isSignaled : Nat → Bool) :
    Nat → Nat → DriverData → DriverData × Search
  | 0, _, data => (data, .missing)
  | fuel + 1, step, data =>
    if step < size.cnt then
      let endStep := if step + findThreshold > size.cnt then size.cnt else step + findThreshold
      match data.lookupAndProcessRange size triple step endStep fenceFound with
      | (data, some hash) => (data, .backed hash)
      | (data, none) =>
        if isSignaled step then (data, .signaled)
        else findRanges size triple isSignaled fuel (step + findThreshold) data
    else (data, .missing)

/-- `hw_fence_find_with_dma_fence` up to where the caller's fence is found, or a fence has to be
created for a signaled dma-fence. -/
def findWithDmaFence (size : Size) (data : DriverData) (triple : Triple) (create : Bool)
    (isSignaledBefore : Bool) (isSignaled : Nat → Bool) : DriverData × Search :=
  if !create && isSignaledBefore then (data, .signaled)
  else findRanges size triple isSignaled size.cnt 0 data

/-- `hw_fence_put_and_unlock` on the table; what is released for a dma-fence is not part of it. -/
def putAndUnlock (data : DriverData) (hash : Nat) : Option DriverData :=
  let hwFence := data.hwFencesTbl hash
  if hwFence.refcount &&& hlosRefcountMask ≠ 0 then
    let refcount := hwFence.refcount - 1
    let hwFence := { hwFence with
      refcount
      internalOwned := hwFence.internalOwned && refcount &&& hlosRefcountMask != 0 }
    some (data.store hash hwFence.released)
  else none

/-- `hw_fence_destroy_with_hash` -/
def destroyWithHash (size : Size) (data : DriverData) (hash : BitVec 64) : Option DriverData :=
  if hash.toNat ≥ size.cnt then none else data.putAndUnlock hash.toNat

/-- The part of `hw_fence_internal_dma_fence_create` that marks the fence it has created. -/
def ownInternally (data : DriverData) (hash : Nat) : DriverData :=
  let hwFence := data.hwFencesTbl hash
  data.store hash { hwFence with
    internalOwned := true, refcount := hwFence.refcount ||| dmaFenceRefcount }

end DriverData

end VendorModules.HwFence
