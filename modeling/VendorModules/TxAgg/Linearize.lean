import Mathlib.Data.BitVec
import Mathlib.Data.List.Basic
import Mathlib.Order.Basic

/-!
# The copy of a packet into the aggregate
-/

namespace VendorModules.TxAgg

/-- A buffer of a `frag_list`: its linear part and its page fragments. -/
structure Member where
  linear : List UInt8
  frags : List (List UInt8)

def memberBytes (members : List Member) : List UInt8 :=
  members.flatMap fun member => member.linear ++ member.frags.flatten

def fragBytes (members : List Member) : List UInt8 :=
  members.flatMap fun member => member.frags.flatten

structure SkBuff where
  linear : List UInt8
  frags : List (List UInt8)
  fragList : List Member
  fits : (linear ++ (frags.flatten ++ memberBytes fragList)).length < 2 ^ 32

namespace SkBuff

variable (src : SkBuff)

/-- What `data_len` counts. -/
def nonLinear : List UInt8 := src.frags.flatten ++ memberBytes src.fragList

def bytes : List UInt8 := src.linear ++ src.nonLinear

def dataLen : BitVec 32 := BitVec.ofNat 32 src.nonLinear.length

def len : BitVec 32 := BitVec.ofNat 32 src.bytes.length

end SkBuff

/-- The inner loop of `rmnet_map_linearize_copy`, over the fragments of one buffer. -/
def copyFrags : List (List UInt8) → List UInt8 → BitVec 32 → List UInt8 × BitVec 32
  | [], dst, target => (dst, target)
  | frag :: frags, dst, target =>
    copyFrags frags (dst ++ frag) (target - BitVec.ofNat 32 frag.length)

/-- The outer loop, at a buffer with the fragments `frags`. Behind the packet's own buffer is its
`frag_list`, behind a member the members after it; where nothing is behind the loop stays. -/
def linearizeLoop : Nat → List (List UInt8) → List Member → List UInt8 → BitVec 32 →
    Option (List UInt8)
  | 0, _, _, _, _ => none
  | fuel + 1, frags, behind, dst, target =>
    if target = 0 then some dst
    else
      let copied := copyFrags frags dst target
      match behind with
      | [] => linearizeLoop fuel frags [] copied.1 copied.2
      | member :: members => linearizeLoop fuel member.frags members copied.1 copied.2

/-- `rmnet_map_linearize_copy`: what is put into the destination, if the loop ends. -/
def linearizeCopy (fuel : Nat) (src : SkBuff) : Option (List UInt8) :=
  let linear := src.len - src.dataLen
  linearizeLoop fuel src.frags src.fragList (src.linear.take linear.toNat) (src.len - linear)

def Linearizes (src : SkBuff) : Prop := ∃ fuel, linearizeCopy fuel src = some src.bytes

def lastFrags : List (List UInt8) → List Member → List (List UInt8)
  | frags, [] => frags
  | _, member :: members => lastFrags member.frags members

/-- The fragments of the last buffer, copied again some times, make up for the linear parts that
are left out. -/
def SkBuff.MadeUp (src : SkBuff) (again : Nat) : Prop :=
  fragBytes src.fragList ++
      (List.replicate again (lastFrags src.frags src.fragList).flatten).flatten =
    memberBytes src.fragList

/-! ### Where the loop comes by -/

theorem copyFrags_eq (frags : List (List UInt8)) (dst : List UInt8) (target : BitVec 32) :
    copyFrags frags dst target =
      (dst ++ frags.flatten, target - BitVec.ofNat 32 frags.flatten.length) := by
  induction frags generalizing dst target with
  | nil => simp [copyFrags]
  | cons frag frags ih =>
    rw [copyFrags, ih, List.flatten_cons, List.length_append, List.append_assoc,
      BitVec.ofNat_add, sub_add_eq_sub_sub]

def passed : Nat → List (List UInt8) → List Member → List UInt8
  | 0, _, _ => []
  | n + 1, frags, [] => frags.flatten ++ passed n frags []
  | n + 1, frags, member :: members => frags.flatten ++ passed n member.frags members

theorem passed_step (n : Nat) (frags : List (List UInt8)) (behind : List Member) :
    passed n frags behind <+: passed (n + 1) frags behind := by
  induction n generalizing frags behind with
  | zero => exact List.nil_prefix
  | succ n ih =>
    cases behind with
    | nil => exact (List.prefix_append_right_inj _).2 (ih frags [])
    | cons member members => exact (List.prefix_append_right_inj _).2 (ih member.frags members)

theorem passed_prefix_of_le {m n : Nat} (le : m ≤ n) (frags : List (List UInt8))
    (behind : List Member) : passed m frags behind <+: passed n frags behind := by
  induction le with
  | refl => exact List.prefix_rfl
  | step _ ih => exact ih.trans (passed_step _ frags behind)

theorem passed_again (again : Nat) (frags : List (List UInt8)) :
    passed again frags [] = (List.replicate again frags.flatten).flatten := by
  induction again with
  | zero => rfl
  | succ again ih => rw [passed, ih, List.replicate_succ, List.flatten_cons]

theorem passed_all (again : Nat) (frags : List (List UInt8)) (behind : List Member) :
    passed (behind.length + 1 + again) frags behind =
      frags.flatten ++ (fragBytes behind ++
        (List.replicate again (lastFrags frags behind).flatten).flatten) := by
  induction behind generalizing frags with
  | nil =>
    rw [List.length_nil, Nat.zero_add, Nat.add_comm, passed, passed_again]
    rfl
  | cons member members ih =>
    have next : members.length + 1 + 1 + again = (members.length + 1 + again) + 1 := by omega
    rw [List.length_cons, next, passed, ih, lastFrags, fragBytes, fragBytes, List.flatMap_cons,
      List.append_assoc]

theorem length_passed_le (n : Nat) (frags : List (List UInt8)) (behind : List Member)
    (early : n ≤ behind.length + 1) :
    (passed n frags behind).length ≤ (frags.flatten ++ fragBytes behind).length := by
  have all := (passed_prefix_of_le early frags behind).length_le
  have whole := passed_all 0 frags behind
  rw [Nat.add_zero, List.replicate_zero, List.flatten_nil, List.append_nil] at whole
  rwa [whole] at all

section Loop

variable {frags : List (List UInt8)} {behind : List Member} {dst out : List UInt8}
  {target : BitVec 32}

theorem exists_next (frags : List (List UInt8)) (behind : List Member) :
    ∃ frags' behind',
      (∀ fuel dst (target : BitVec 32), target ≠ 0 →
        linearizeLoop (fuel + 1) frags behind dst target =
          linearizeLoop fuel frags' behind' (dst ++ frags.flatten)
            (target - BitVec.ofNat 32 frags.flatten.length)) ∧
      ∀ n, passed (n + 1) frags behind = frags.flatten ++ passed n frags' behind' := by
  cases behind with
  | nil =>
    refine ⟨frags, [], fun fuel dst target more => ?_, fun n => rfl⟩
    rw [linearizeLoop, if_neg more, copyFrags_eq]
  | cons member members =>
    refine ⟨member.frags, members, fun fuel dst target more => ?_, fun n => rfl⟩
    rw [linearizeLoop, if_neg more, copyFrags_eq]

theorem eq_ofNat_append_iff (first second : List UInt8) :
    target = BitVec.ofNat 32 (first ++ second).length ↔
      target - BitVec.ofNat 32 first.length = BitVec.ofNat 32 second.length := by
  rw [List.length_append, BitVec.ofNat_add, sub_eq_iff_eq_add, add_comm]

theorem linearizeLoop_some {fuel : Nat}
    (ended : linearizeLoop fuel frags behind dst target = some out) :
    ∃ n, out = dst ++ passed n frags behind ∧
      target = BitVec.ofNat 32 (passed n frags behind).length := by
  induction fuel generalizing frags behind dst target with
  | zero => cases ended
  | succ fuel ih =>
    by_cases done : target = 0
    · rw [linearizeLoop, if_pos done] at ended
      cases ended
      exact ⟨0, (List.append_nil _).symm, done⟩
    · obtain ⟨frags', behind', loop, next⟩ := exists_next frags behind
      rw [loop fuel dst target done] at ended
      obtain ⟨n, copied, count⟩ := ih ended
      refine ⟨n + 1, ?_, ?_⟩
      · rw [copied, next, List.append_assoc]
      · rw [next, eq_ofNat_append_iff]
        exact count

theorem exists_linearizeLoop {n : Nat}
    (count : target = BitVec.ofNat 32 (passed n frags behind).length)
    (first : ∀ m < n, target ≠ BitVec.ofNat 32 (passed m frags behind).length) :
    ∃ fuel, linearizeLoop fuel frags behind dst target = some (dst ++ passed n frags behind) := by
  induction n generalizing frags behind dst target with
  | zero =>
    refine ⟨1, ?_⟩
    have done : target = 0 := count
    rw [linearizeLoop, if_pos done, passed, List.append_nil]
  | succ n ih =>
    obtain ⟨frags', behind', loop, next⟩ := exists_next frags behind
    have more : target ≠ 0 := first 0 (Nat.succ_pos n)
    rw [next, eq_ofNat_append_iff] at count
    obtain ⟨fuel, ended⟩ := @ih frags' behind' (dst ++ frags.flatten) _ count fun m early same => by
      rw [← eq_ofNat_append_iff, ← next] at same
      exact first (m + 1) (Nat.succ_lt_succ early) same
    refine ⟨fuel + 1, ?_⟩
    rw [loop fuel dst target more, ended, next, List.append_assoc]

end Loop

/-! ### Which packets are copied -/

variable {src : SkBuff}

theorem linearizeCopy_eq (fuel : Nat) :
    linearizeCopy fuel src =
      linearizeLoop fuel src.frags src.fragList src.linear
        (BitVec.ofNat 32 src.nonLinear.length) := by
  have fits : src.linear.length + src.nonLinear.length < 2 ^ 32 := by
    rw [← List.length_append]
    exact src.fits
  have linear : src.len - src.dataLen = BitVec.ofNat 32 src.linear.length := by
    rw [SkBuff.len, SkBuff.dataLen, SkBuff.bytes, List.length_append, BitVec.ofNat_add,
      add_sub_cancel_right]
  have rest : src.len - BitVec.ofNat 32 src.linear.length =
      BitVec.ofNat 32 src.nonLinear.length := by
    rw [SkBuff.len, SkBuff.bytes, List.length_append, BitVec.ofNat_add, add_sub_cancel_left]
  have length : (BitVec.ofNat 32 src.linear.length).toNat = src.linear.length := by
    rw [BitVec.toNat_ofNat]
    exact Nat.mod_eq_of_lt (by omega)
  rw [linearizeCopy, linear, rest, length, List.take_length]

theorem linearizes_iff_passed :
    Linearizes src ↔ ∃ n, passed n src.frags src.fragList = src.nonLinear := by
  constructor
  · rintro ⟨fuel, copied⟩
    rw [linearizeCopy_eq] at copied
    obtain ⟨n, same, -⟩ := linearizeLoop_some copied
    exact ⟨n, (List.append_cancel_left same).symm⟩
  · intro all
    classical
    have least := Nat.find_spec all
    have fits : src.nonLinear.length < 2 ^ 32 := by
      have fits := src.fits
      rw [List.length_append] at fits
      exact Nat.lt_of_le_of_lt (Nat.le_add_left _ _) fits
    have first : ∀ m < Nat.find all, BitVec.ofNat 32 src.nonLinear.length ≠
        BitVec.ofNat 32 (passed m src.frags src.fragList).length := by
      intro m early same
      have part : passed m src.frags src.fragList <+: src.nonLinear := by
        rw [← least]
        exact passed_prefix_of_le (Nat.le_of_lt early) _ _
      have small := part.length_le
      have length := congrArg BitVec.toNat same
      rw [BitVec.toNat_ofNat, BitVec.toNat_ofNat, Nat.mod_eq_of_lt fits,
        Nat.mod_eq_of_lt (Nat.lt_of_le_of_lt small fits)] at length
      exact Nat.find_min all early (part.eq_of_length length.symm)
    obtain ⟨fuel, copied⟩ := @exists_linearizeLoop src.frags src.fragList src.linear
      (BitVec.ofNat 32 src.nonLinear.length) (Nat.find all) (by rw [least]) first
    rw [least] at copied
    exact ⟨fuel, (linearizeCopy_eq fuel).trans copied⟩

theorem length_memberBytes (members : List Member) :
    (memberBytes members).length =
      (members.flatMap Member.linear).length + (fragBytes members).length := by
  induction members with
  | nil => rfl
  | cons member members ih =>
    simp only [memberBytes, fragBytes, List.flatMap_cons, List.length_append] at ih ⊢
    omega

theorem linear_eq_nil_of_length {members : List Member}
    (short : (memberBytes members).length ≤ (fragBytes members).length) :
    ∀ member ∈ members, member.linear = [] := by
  rw [length_memberBytes] at short
  have none : members.flatMap Member.linear = [] := List.eq_nil_of_length_eq_zero (by omega)
  exact List.flatMap_eq_nil_iff.1 none

theorem fragBytes_eq_memberBytes {members : List Member}
    (bare : ∀ member ∈ members, member.linear = []) :
    fragBytes members = memberBytes members := by
  apply List.flatMap_congr
  intro member here
  rw [bare member here, List.nil_append]

/-- Packets are copied exactly if their members have no linear parts, or if the last buffer's
fragments happen to make up for them. -/
theorem linearizes_iff (src : SkBuff) :
    Linearizes src ↔
      (∀ member ∈ src.fragList, member.linear = []) ∨ ∃ again > 0, src.MadeUp again := by
  rw [linearizes_iff_passed]
  constructor
  · rintro ⟨n, all⟩
    by_cases early : n ≤ src.fragList.length + 1
    · have short := length_passed_le n src.frags src.fragList early
      rw [all, SkBuff.nonLinear, List.length_append, List.length_append] at short
      exact .inl (linear_eq_nil_of_length (Nat.le_of_add_le_add_left short))
    · obtain ⟨again, rfl⟩ := Nat.exists_eq_add_of_le (Nat.le_of_not_le early)
      rw [passed_all, SkBuff.nonLinear] at all
      exact .inr ⟨again, by omega, List.append_cancel_left all⟩
  · rintro (bare | ⟨again, -, made⟩)
    · refine ⟨src.fragList.length + 1 + 0, ?_⟩
      rw [passed_all, List.replicate_zero, List.flatten_nil, List.append_nil,
        fragBytes_eq_memberBytes bare]
      rfl
    · refine ⟨src.fragList.length + 1 + again, ?_⟩
      rw [passed_all, made]
      rfl

def oneMember : SkBuff where
  linear := [1, 2]
  frags := []
  fragList := [⟨[3], []⟩]
  fits := by decide

theorem oneMember_not_linearizes : ¬Linearizes oneMember := by
  rw [linearizes_iff_passed]
  rintro ⟨n, all⟩
  have none : ∀ n, passed n [] [] = [] := by
    intro n
    induction n with
    | zero => rfl
    | succ n ih => rw [passed, ih, List.flatten_nil, List.nil_append]
  cases n with
  | zero => cases all
  | succ n =>
    have all : passed n [] [] = [3] := all
    rw [none] at all
    cases all

end VendorModules.TxAgg
