import Mathlib.Data.Int.ModEq
import Mathlib.Data.BitVec
import Mathlib.Tactic.Ring

namespace VendorModules.Lib

/-! Sums of words with the carry brought round, as the checksums of the internet protocols use
them. A word stands for a number modulo 65535, and both zero and 65535 stand for zero. -/

namespace EndAround

/-- The sum of two words, with the carry brought round. -/
def add (a b : BitVec 16) : BitVec 16 :=
  let sum := a.setWidth 17 + b.setWidth 17
  if sum.getLsbD 16 then sum.setWidth 16 + 1 else sum.setWidth 16

def total (words : List (BitVec 16)) : ℤ := (words.map fun word => (word.toNat : ℤ)).sum

@[simp] theorem total_cons (word : BitVec 16) (words : List (BitVec 16)) :
    total (word :: words) = word.toNat + total words := by
  rw [total, List.map_cons, List.sum_cons]
  rfl

@[simp] theorem total_append (words more : List (BitVec 16)) :
    total (words ++ more) = total words + total more := by
  rw [total, List.map_append, List.sum_append]
  rfl

theorem toNat_add (a b : BitVec 16) :
    (add a b).toNat =
      if 65536 ≤ a.toNat + b.toNat then a.toNat + b.toNat - 65535 else a.toNat + b.toNat := by
  have first := a.isLt
  have second := b.isLt
  have one : (1 : BitVec 16).toNat = 1 := rfl
  have sum : (a.setWidth 17 + b.setWidth 17).toNat = a.toNat + b.toNat := by
    rw [BitVec.toNat_add, BitVec.toNat_setWidth, BitVec.toNat_setWidth]
    omega
  have carry : (a.setWidth 17 + b.setWidth 17).getLsbD 16 =
      decide (65536 ≤ a.toNat + b.toNat) := by
    rw [BitVec.getLsbD, sum, Nat.testBit_eq_decide_div_mod_eq, decide_eq_decide]
    omega
  rw [add, carry]
  by_cases around : 65536 ≤ a.toNat + b.toNat
  · rw [decide_eq_true around, if_pos rfl, if_pos around, BitVec.toNat_add,
      BitVec.toNat_setWidth, sum, one]
    omega
  · rw [decide_eq_false around, if_neg Bool.false_ne_true, if_neg around,
      BitVec.toNat_setWidth, sum]
    omega

theorem modEq_add (a b : BitVec 16) :
    ((add a b).toNat : ℤ) ≡ a.toNat + b.toNat [ZMOD 65535] := by
  rw [toNat_add]
  split_ifs with around
  · rw [Int.modEq_iff_dvd]
    refine ⟨1, ?_⟩
    rw [Nat.cast_sub (by omega : 65535 ≤ a.toNat + b.toNat)]
    push_cast
    ring
  · push_cast
    rfl

theorem modEq_foldl (words : List (BitVec 16)) (sum : BitVec 16) :
    ((words.foldl add sum).toNat : ℤ) ≡ sum.toNat + total words [ZMOD 65535] := by
  induction words generalizing sum with
  | nil =>
    rw [List.foldl_nil, total, List.map_nil, List.sum_nil, add_zero]
  | cons word words ih =>
    have first := (modEq_add sum word).add_right (total words)
    rw [List.foldl_cons, total_cons, ← add_assoc]
    exact (ih (add sum word)).trans first

theorem modEq_not (a : BitVec 16) : ((~~~a).toNat : ℤ) ≡ -a.toNat [ZMOD 65535] := by
  have small := a.isLt
  rw [BitVec.toNat_not, Int.modEq_iff_dvd]
  refine ⟨-1, ?_⟩
  rw [Nat.cast_sub (by omega : a.toNat ≤ 2 ^ 16 - 1)]
  push_cast
  ring

theorem total_map_not (words : List (BitVec 16)) :
    total (words.map fun word => ~~~word) ≡ -total words [ZMOD 65535] := by
  induction words with
  | nil => rfl
  | cons word words ih =>
    rw [List.map_cons, total_cons, total_cons, neg_add]
    exact (modEq_not word).add ih

theorem modEq_difference (word : BitVec 16) (new old : List (BitVec 16)) :
    (((new ++ old.map fun word => ~~~word).foldl add word).toNat : ℤ) ≡
      total (word :: new) - total old [ZMOD 65535] := by
  have sums := modEq_foldl (new ++ old.map fun word => ~~~word) word
  have complements := (total_map_not old).add_left (word.toNat + total new)
  rw [total_append, ← add_assoc] at sums
  rw [total_cons, sub_eq_add_neg]
  exact sums.trans complements

def Sums (words : List (BitVec 16)) (sum : BitVec 16) : Prop :=
  (sum.toNat : ℤ) ≡ total words [ZMOD 65535]

/-- A checksum field is valid if it makes the sum of all words zero. -/
def Valid (words : List (BitVec 16)) (field : BitVec 16) : Prop :=
  total words + field.toNat ≡ 0 [ZMOD 65535]

instance (words : List (BitVec 16)) (field : BitVec 16) : Decidable (Valid words field) :=
  inferInstanceAs (Decidable (_ % _ = _ % _))

variable {words : List (BitVec 16)} {sum field : BitVec 16}

theorem valid_iff : Valid words field ↔ Sums words (~~~field) := by
  have complement := modEq_not field
  rw [Valid, Sums]
  constructor
  · intro zero
    have other := (Int.ModEq.neg (zero.sub_right (total words)))
    rw [add_sub_cancel_left, zero_sub, neg_neg] at other
    exact complement.trans other
  · intro sums
    have zero := (complement.symm.trans sums).neg.symm.add_left (total words)
    rw [neg_neg, add_neg_cancel] at zero
    exact zero.symm

theorem Sums.replace {old new : List (BitVec 16)} {delta : BitVec 16}
    (difference : (delta.toNat : ℤ) ≡ total new - total old [ZMOD 65535])
    (sums : Sums (words ++ old) sum) : Sums (words ++ new) (add sum delta) := by
  rw [Sums, total_append] at sums ⊢
  refine (modEq_add sum delta).trans ((sums.add difference).trans ?_)
  rw [add_assoc, add_sub_cancel]

theorem Valid.restore {old new : List (BitVec 16)} {delta : BitVec 16}
    (difference : (delta.toNat : ℤ) ≡ total new - total old [ZMOD 65535])
    (valid : Valid (words ++ new) field) : Valid (words ++ old) (add field delta) := by
  rw [Valid, total_append] at valid ⊢
  have added := ((modEq_add field delta).trans (difference.add_left _)).add_left
    (total words + total old)
  have cancel : total words + total old + (field.toNat + (total new - total old)) =
      total words + total new + field.toNat := by ring
  rw [cancel] at added
  exact added.trans valid

/-- What a delta is good for when words of a packet are replaced and put back: it is added to
the sum first, to the field then. -/
structure Moves (old new : List (BitVec 16)) (delta : BitVec 16) : Prop where
  difference : (delta.toNat : ℤ) ≡ total new - total old [ZMOD 65535]
  replace : ∀ words field, Valid (words ++ old) field →
    Valid (words ++ new) (~~~(add (~~~field) delta))
  restore : ∀ words field, Valid (words ++ new) field → Valid (words ++ old) (add field delta)

theorem Moves.of_difference {old new : List (BitVec 16)} {delta : BitVec 16}
    (difference : (delta.toNat : ℤ) ≡ total new - total old [ZMOD 65535]) :
    Moves old new delta where
  difference := difference
  replace words field valid := by
    rw [valid_iff, BitVec.not_not]
    exact (valid_iff.mp valid).replace difference
  restore words field valid := valid.restore difference

end EndAround

end VendorModules.Lib
