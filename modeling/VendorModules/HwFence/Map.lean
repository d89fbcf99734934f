import VendorModules.HwFence.Lookup
import VendorModules.Lib.Transition

namespace VendorModules.HwFence

open Lib

variable {size : Size} {data data' : DriverData} {triple : Triple} {hash : Nat}

inductive Move
  | create (clientId : BitVec 32) (triple : Triple) (pendingChildCnt : BitVec 32)
      (createSignaled : Bool)
  | createInternal (clientId : BitVec 32) (triple : Triple)
  | find (triple : Triple)
  | findWithDmaFence (triple : Triple) (create isSignaledBefore : Bool) (isSignaled : List Bool)
  | destroy (triple : Triple)
  | destroyRefcount (hash : BitVec 64) (ref : BitVec 32)
  | destroyWithHash (hash : BitVec 64)
  deriving DecidableEq, Repr

def step (size : Size) (data : DriverData) : Move → Option DriverData
  | .create clientId triple pendingChildCnt createSignaled =>
    (data.lookupAndCreate size clientId triple pendingChildCnt createSignaled).1
  | .createInternal clientId triple =>
    match data.lookupAndCreate size clientId triple 0 false with
    | (data, some hash) => data.ownInternally hash
    | (data, none) => data
  | .find triple => (data.find size triple).1
  | .findWithDmaFence triple create isSignaledBefore isSignaled =>
    (data.findWithDmaFence size triple create isSignaledBefore
      fun step => isSignaled.getD (step / findThreshold) false).1
  | .destroy triple => (data.destroy size triple).1
  | .destroyRefcount hash ref => (data.destroyRefcount size hash ref).getD data
  | .destroyWithHash hash => (data.destroyWithHash size hash).getD data

def Initial (data : DriverData) : Prop := data = DriverData.init

namespace DriverData

def Before (size : Size) (triple : Triple) (i j : Nat) : Prop :=
  probeDistance size.cnt (homeOf size triple) i < probeDistance size.cnt (homeOf size triple) j

instance (i j : Nat) : Decidable (Before size triple i j) :=
  inferInstanceAs (Decidable (_ < _))

def Saturated (data : DriverData) (i : Nat) : Prop :=
  (data.hwFencesTbl i).refcount &&& hlosRefcountMask = hlosRefcountMask

instance (i : Nat) : Decidable (data.Saturated i) :=
  inferInstanceAs (Decidable (_ = _))

def holds (data : DriverData) (triple : Triple) (i : Nat) : Bool :=
  (data.hwFencesTbl i).valid && data.hwFenceMatch triple i

def remains (data : DriverData) (triple : Triple) (i : Nat) : Bool :=
  !(data.hwFencesTbl i).valid && data.hwFenceMatch triple i

def Hidden (size : Size) (data : DriverData) (triple : Triple) : Prop :=
  ∃ i < size.cnt, data.holds triple i = true ∧
    ∃ j < size.cnt, (data.hwFencesTbl j).valid = false ∧ Before size triple j i

instance : Decidable (data.Hidden size triple) :=
  inferInstanceAs (Decidable (∃ i, i < size.cnt ∧ _ ∧ ∃ j, j < size.cnt ∧ _))

def Shown (size : Size) (data : DriverData) (triple : Triple) : Prop :=
  ∀ j < size.cnt, data.remains triple j = true →
    ∃ i < size.cnt, (data.holds triple i = true ∧ ¬ data.Saturated i) ∧ Before size triple i j

instance : Decidable (data.Shown size triple) :=
  inferInstanceAs (Decidable (∀ j, j < size.cnt → _ → ∃ i, i < size.cnt ∧ _))

end DriverData

open DriverData

/-- Nothing is created that is there behind a free slot, and nothing is looked for that a free
slot would answer to. -/
def Careful (size : Size) (data : DriverData) : Move → Prop
  | .create _ triple _ _ | .createInternal _ triple => ¬ data.Hidden size triple
  | .find triple | .findWithDmaFence triple _ _ _ => data.Shown size triple
  | _ => True

instance (move : Move) : Decidable (Careful size data move) := by
  unfold Careful
  split <;> infer_instance

structure Mapped (size : Size) (data : DriverData) : Prop where
  unique : ∀ i < size.cnt, ∀ j < size.cnt, (data.hwFencesTbl i).valid = true →
    (data.hwFencesTbl j).valid = true → ∀ triple, data.hwFenceMatch triple i = true →
      data.hwFenceMatch triple j = true → i = j
  clean : ∀ i, (data.hwFencesTbl i).valid = false → (data.hwFencesTbl i).refcount = 0

theorem hwFenceMatch_iff {i : Nat} : data.hwFenceMatch triple i = true ↔
    (data.hwFencesTbl i).ctxId = triple.context ∧ (data.hwFencesTbl i).seqId = triple.seqno ∧
      data.hlosKeyTbl i = triple.hlosKey := by
  simp [hwFenceMatch, and_assoc]

theorem valid_released_of_zero {hwFence : MsmHwFence} (last : hwFence.refcount = 0) :
    hwFence.released.valid = false := by
  rw [MsmHwFence.released, if_pos last]

namespace Mapped

theorem of_init : Mapped size DriverData.init where
  unique := by
    intro i _ j _ valid
    cases valid
  clean := fun _ _ => rfl

theorem of_change (mapped : Mapped size data) (hash : Nat)
    (others : ∀ i, i ≠ hash → data'.hwFencesTbl i = data.hwFencesTbl i ∧
      data'.hlosKeyTbl i = data.hlosKeyTbl i)
    (kept : (data'.hwFencesTbl hash).valid = true → (data.hwFencesTbl hash).valid = true ∧
      ∀ triple, data'.hwFenceMatch triple hash = data.hwFenceMatch triple hash)
    (clean : (data'.hwFencesTbl hash).valid = false → (data'.hwFencesTbl hash).refcount = 0) :
    Mapped size data' := by
  have was {i : Nat} (valid : (data'.hwFencesTbl i).valid = true) :
      (data.hwFencesTbl i).valid = true ∧
        ∀ triple, data'.hwFenceMatch triple i = data.hwFenceMatch triple i := by
    by_cases here : i = hash
    · subst here
      exact kept valid
    · obtain ⟨fence, key⟩ := others i here
      refine ⟨by rwa [← fence], fun triple => ?_⟩
      simp only [hwFenceMatch, fence, key]
  constructor
  · intro i inside j inside' valid valid' triple matching matching'
    obtain ⟨valid, same⟩ := was valid
    obtain ⟨valid', same'⟩ := was valid'
    rw [same] at matching
    rw [same'] at matching'
    exact mapped.unique i inside j inside' valid valid' triple matching matching'
  · intro i free
    by_cases here : i = hash
    · subst here
      exact clean free
    · rw [(others i here).1] at free ⊢
      exact mapped.clean i free

theorem of_store (mapped : Mapped size data) {hwFence : MsmHwFence}
    (kept : hwFence.valid = true → (data.hwFencesTbl hash).valid = true ∧
      hwFence.ctxId = (data.hwFencesTbl hash).ctxId ∧
        hwFence.seqId = (data.hwFencesTbl hash).seqId)
    (clean : hwFence.valid = false → hwFence.refcount = 0) :
    Mapped size (data.store hash hwFence) := by
  refine mapped.of_change hash (fun i differs => ?_) (fun valid => ?_) fun free => ?_
  · exact ⟨Function.update_of_ne differs .., rfl⟩
  · simp only [store, Function.update_self] at valid
    obtain ⟨was, ctxId, seqId⟩ := kept valid
    refine ⟨was, fun triple => ?_⟩
    simp only [hwFenceMatch, store, Function.update_self, ctxId, seqId]
  · simp only [store, Function.update_self] at free ⊢
    exact clean free

theorem valid_of_ref (mapped : Mapped size data) {ref : BitVec 32}
    (held : (data.hwFencesTbl hash).refcount &&& ref ≠ 0) :
    (data.hwFencesTbl hash).valid = true := by
  cases valid : (data.hwFencesTbl hash).valid with
  | true => rfl
  | false =>
    rw [mapped.clean hash valid] at held
    exact absurd (BitVec.zero_and) held

theorem fenceFound (mapped : Mapped size data) (valid : (data.hwFencesTbl hash).valid = true)
    (found : data.fenceFound hash = some data') : Mapped size data' := by
  unfold DriverData.fenceFound at found
  dsimp only at found
  split at found
  · cases found
  · cases found
    apply mapped.of_store
    · exact fun _ => ⟨valid, rfl, rfl⟩
    · intro free
      rw [valid] at free
      cases free

theorem release (mapped : Mapped size data) (valid : (data.hwFencesTbl hash).valid = true)
    {hwFence : MsmHwFence} (same : hwFence.valid = (data.hwFencesTbl hash).valid)
    (ctxId : hwFence.ctxId = (data.hwFencesTbl hash).ctxId)
    (seqId : hwFence.seqId = (data.hwFencesTbl hash).seqId) :
    Mapped size (data.store hash hwFence.released) := by
  unfold MsmHwFence.released
  split
  · apply mapped.of_store
    · intro still
      cases still
    · exact fun _ => rfl
  · apply mapped.of_store
    · exact fun _ => ⟨valid, ctxId, seqId⟩
    · intro free
      rw [same, valid] at free
      cases free

theorem storeKey (mapped : Mapped size data) (free : (data.hwFencesTbl hash).valid = false)
    (hlosKey : BitVec 64) : Mapped size (data.storeKey hash hlosKey) := by
  refine mapped.of_change hash (fun i differs => ?_) (fun valid => ?_) fun still => ?_
  · exact ⟨rfl, Function.update_of_ne differs ..⟩
  · exact absurd (free.symm.trans valid) (by decide)
  · exact mapped.clean hash still

theorem unreserve (mapped : Mapped size data) (dropped : data.unreserve hash = some data') :
    Mapped size data' := by
  unfold DriverData.unreserve at dropped
  dsimp only at dropped
  split at dropped
  · rename_i held
    cases dropped
    have released : Mapped size (data.store hash { data.hwFencesTbl hash with
        refcount := (data.hwFencesTbl hash).refcount - 1 : MsmHwFence }.released) := by
      apply mapped.release (mapped.valid_of_ref held) <;> rfl
    split
    · rename_i last
      apply released.storeKey
      simp only [store, Function.update_self]
      exact valid_released_of_zero last
    · exact released
  · cases dropped

theorem destroyRefcount (mapped : Mapped size data) {place : BitVec 64} {ref : BitVec 32}
    (dropped : data.destroyRefcount size place ref = some data') : Mapped size data' := by
  unfold DriverData.destroyRefcount at dropped
  dsimp only at dropped
  split at dropped
  · cases dropped
  · split at dropped
    · rename_i held
      cases dropped
      apply mapped.release (mapped.valid_of_ref held) <;> rfl
    · cases dropped

theorem destroyWithHash (mapped : Mapped size data) {place : BitVec 64}
    (dropped : data.destroyWithHash size place = some data') : Mapped size data' := by
  unfold DriverData.destroyWithHash DriverData.putAndUnlock at dropped
  dsimp only at dropped
  split at dropped
  · cases dropped
  · split at dropped
    · rename_i held
      cases dropped
      apply mapped.release (mapped.valid_of_ref held) <;> rfl
    · cases dropped

end Mapped

end VendorModules.HwFence
