import VendorModules.HwFence.Table
import VendorModules.Lib.Probe

namespace VendorModules.HwFence

open Lib

/-! The loops over the table as searches along the slots from the hash of the fence on. -/

variable {size : Size} {data : DriverData} {triple : Triple} {α : Type}

theorem Size.toNat_ofNat (size : Size) : (BitVec.ofNat 64 size.cnt).toNat = size.cnt := by
  rw [BitVec.toNat_ofNat]
  exact Nat.mod_eq_of_lt (Nat.lt_trans size.small (by decide))

theorem calculateHash_lt (size : Size) (context seqno : BitVec 64) :
    (calculateHash context seqno size.cnt).toNat < size.cnt := by
  have small := size.small
  unfold calculateHash
  dsimp only
  generalize hashAMult * seqno * (context + (context - 1)) + hashCMult * context = sum
  have inside : (sum % BitVec.ofNat 64 size.cnt).toNat < size.cnt := by
    rw [BitVec.toNat_umod, size.toNat_ofNat]
    exact Nat.mod_lt _ size.pos
  generalize sum % BitVec.ofNat 64 size.cnt = hash at inside
  have same : (hash.truncate 32).toNat = hash.toNat := by
    rw [BitVec.truncate_eq_setWidth, BitVec.toNat_setWidth]
    exact Nat.mod_eq_of_lt (by omega)
  have positive : (hash.truncate 32).msb = false := by
    rw [BitVec.msb_eq_decide, same]
    simp only [decide_eq_false_iff_not]
    omega
  rw [BitVec.signExtend_eq_setWidth_of_msb_false positive, BitVec.toNat_setWidth, same]
  rwa [Nat.mod_eq_of_lt (Nat.lt_trans inside (by omega))]

theorem toNat_lookupNext {hash : BitVec 64} (inside : hash.toNat < size.cnt) {incr : Nat}
    (near : incr ≤ size.cnt) :
    (lookupNext size.cnt hash incr).toNat = (hash.toNat + incr) % size.cnt := by
  have small := size.small
  have within : incr < 2 ^ 64 := by omega
  have sum : hash.toNat + incr < 2 ^ 64 := by omega
  rw [lookupNext, BitVec.toNat_umod, size.toNat_ofNat, BitVec.toNat_add, BitVec.toNat_ofNat,
    Nat.mod_eq_of_lt within, Nat.mod_eq_of_lt sum]

def homeOf (size : Size) (triple : Triple) : Nat :=
  (calculateHash triple.context triple.seqno size.cnt).toNat

theorem homeOf_lt (size : Size) (triple : Triple) : homeOf size triple < size.cnt :=
  calculateHash_lt size _ _

theorem forEachHwFence_eq (body : Nat → Option α) (left : Nat) {hash : BitVec 64}
    (inside : hash.toNat < size.cnt) :
    forEachHwFence size.cnt body left hash =
      (firstProbe (fun i => (body i).isSome) size.cnt left hash.toNat).bind fun i =>
        (body i).map fun found => (i, found) := by
  induction left generalizing hash with
  | zero => rfl
  | succ left ih =>
    have next := toNat_lookupNext inside size.pos
    rw [forEachHwFence, firstProbe_succ]
    cases found : body hash.toNat with
    | some a => simp [found]
    | none =>
      have onward := @ih (lookupNext size.cnt hash 1) (by
        rw [next]
        exact Nat.mod_lt _ size.pos)
      simp only [Option.isSome_none, Bool.false_eq_true, if_false, onward, next]

theorem iterate_eq (body : Nat → Option α) {startStep endStep : Nat} (some_steps : startStep < endStep)
    (inside : endStep ≤ size.cnt) :
    iterate size triple.context triple.seqno startStep endStep body =
      (firstProbe (fun i => (body i).isSome) size.cnt (endStep - startStep)
        ((homeOf size triple + startStep) % size.cnt)).bind fun i =>
          (body i).map fun found => (i, found) := by
  have home := homeOf_lt size triple
  have near : startStep ≤ size.cnt := by omega
  have start := toNat_lookupNext home near
  rw [iterate, if_neg (by omega), forEachHwFence_eq _ _ (by
    rw [start]
    exact Nat.mod_lt _ size.pos), start]
  rfl

theorem iterate_full_eq (body : Nat → Option α) :
    iterate size triple.context triple.seqno 0 size.cnt body =
      (firstProbe (fun i => (body i).isSome) size.cnt size.cnt (homeOf size triple)).bind
        fun i => (body i).map fun found => (i, found) := by
  rw [iterate_eq body size.pos (Nat.le_refl _), Nat.sub_zero, Nat.add_zero,
    Nat.mod_eq_of_lt (homeOf_lt size triple)]

namespace DriverData

theorem lookupAndProcessRange_eq (processFn : DriverData → Nat → Option DriverData)
    {startStep endStep : Nat} (some_steps : startStep < endStep) (inside : endStep ≤ size.cnt) :
    data.lookupAndProcessRange size triple startStep endStep processFn =
      match firstProbe (data.hwFenceMatch triple) size.cnt (endStep - startStep)
          ((homeOf size triple + startStep) % size.cnt) with
      | none => (data, none)
      | some hash =>
        match processFn data hash with
        | some data => (data, some hash)
        | none => (data, none) := by
  have passes : ∀ i, (data.processHere triple i).isSome = data.hwFenceMatch triple i := by
    intro i
    unfold processHere
    split
    · simp [*]
    · simp [*]
  rw [lookupAndProcessRange, iterate_eq _ some_steps inside, firstProbe_congr passes]
  cases found : firstProbe (data.hwFenceMatch triple) size.cnt (endStep - startStep)
      ((homeOf size triple + startStep) % size.cnt) with
  | none => rfl
  | some hash =>
    have home : (homeOf size triple + startStep) % size.cnt < size.cnt := Nat.mod_lt _ size.pos
    obtain ⟨_, _, _, matches_here, _⟩ := (firstProbe_eq_some_iff _ _ home).mp found
    cases processed : processFn data hash with
    | none => simp [processHere, matches_here, processed]
    | some data' => simp [processHere, matches_here, processed]

theorem lookupAndProcess_eq (processFn : DriverData → Nat → Option DriverData) :
    data.lookupAndProcess size triple processFn =
      match firstProbe (data.hwFenceMatch triple) size.cnt size.cnt (homeOf size triple) with
      | none => (data, none)
      | some hash =>
        match processFn data hash with
        | some data => (data, some hash)
        | none => (data, none) := by
  rw [lookupAndProcess, lookupAndProcessRange_eq _ size.pos (Nat.le_refl _), Nat.sub_zero,
    Nat.add_zero, Nat.mod_eq_of_lt (homeOf_lt size triple)]

def stopsCreation (data : DriverData) (triple : Triple) (hash : Nat) : Bool :=
  !(data.hwFencesTbl hash).valid || data.hwFenceMatch triple hash

theorem lookupAndCreate_eq (clientId : BitVec 32) (pendingChildCnt : BitVec 32)
    (createSignaled : Bool) :
    data.lookupAndCreate size clientId triple pendingChildCnt createSignaled =
      match firstProbe (data.stopsCreation triple) size.cnt size.cnt (homeOf size triple) with
      | none => (data, none)
      | some hash =>
        if (data.hwFencesTbl hash).valid then
          if createSignaled then
            match data.fenceFound hash with
            | some data => (data, some hash)
            | none => (data, none)
          else (data, none)
        else (data.reserve clientId triple pendingChildCnt hash, some hash) := by
  have passes : ∀ i, (data.createHere triple i).isSome = data.stopsCreation triple i := by
    intro i
    unfold createHere stopsCreation
    split
    · simp [*]
    · split
      · simp [*]
      · simp_all
  rw [lookupAndCreate, iterate_full_eq, firstProbe_congr passes]
  cases found : firstProbe (data.stopsCreation triple) size.cnt size.cnt (homeOf size triple) with
  | none => rfl
  | some hash =>
    obtain ⟨_, stops, _⟩ := (firstProbe_full_eq_some_iff _ (homeOf_lt size triple)).mp found
    cases valid : (data.hwFencesTbl hash).valid with
    | false => simp [createHere, valid]
    | true =>
      rw [stopsCreation, valid, Bool.not_true, Bool.false_or] at stops
      cases shared : data.fenceFound hash with
      | none => simp [createHere, valid, stops, shared]
      | some data' => simp [createHere, valid, stops, shared]

end DriverData

end VendorModules.HwFence
