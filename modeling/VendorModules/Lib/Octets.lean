import VendorModules.Lib.EndAround

namespace VendorModules.Lib

/-! Bytes as words of two, read with the high byte first or with the low one first. The last of
an odd number of bytes is filled up with a zero. -/

namespace Octets

open EndAround

def big : List UInt8 → ℤ
  | [] => 0
  | [a] => 256 * a.toNat
  | a :: b :: bytes => 256 * a.toNat + b.toNat + big bytes

def little : List UInt8 → ℤ
  | [] => 0
  | [a] => a.toNat
  | a :: b :: bytes => a.toNat + 256 * b.toNat + little bytes

def bigWords : List UInt8 → List (BitVec 16)
  | [] => []
  | [a] => [a.toBitVec ++ 0#8]
  | a :: b :: bytes => (a.toBitVec ++ b.toBitVec) :: bigWords bytes

def littleWords : List UInt8 → List (BitVec 16)
  | [] => []
  | [a] => [0#8 ++ a.toBitVec]
  | a :: b :: bytes => (b.toBitVec ++ a.toBitVec) :: littleWords bytes

def swap (word : BitVec 16) : BitVec 16 := word.extractLsb' 0 8 ++ word.extractLsb' 8 8

theorem toNat_word (high low : BitVec 8) : (high ++ low).toNat = 256 * high.toNat + low.toNat := by
  rw [BitVec.toNat_append, ← Nat.shiftLeft_add_eq_or_of_lt low.isLt, Nat.shiftLeft_eq]
  omega

theorem total_bigWords (bytes : List UInt8) : total (bigWords bytes) = big bytes := by
  induction bytes using bigWords.induct with
  | case1 => rfl
  | case2 a =>
    rw [bigWords, total_cons, toNat_word, big]
    simp [total]
  | case3 a b bytes ih =>
    rw [bigWords, total_cons, toNat_word, ih, big]
    push_cast
    rfl

theorem total_littleWords (bytes : List UInt8) : total (littleWords bytes) = little bytes := by
  induction bytes using littleWords.induct with
  | case1 => rfl
  | case2 a =>
    rw [littleWords, total_cons, toNat_word, little]
    simp [total]
  | case3 a b bytes ih =>
    rw [littleWords, total_cons, toNat_word, ih, little]
    push_cast
    simp only [UInt8.toNat_toBitVec]
    ring

theorem cons_eq (a : UInt8) (bytes : List UInt8) :
    big (a :: bytes) = 256 * a.toNat + little bytes ∧
      little (a :: bytes) = a.toNat + big bytes := by
  induction bytes generalizing a with
  | nil => exact ⟨(add_zero _).symm, (add_zero _).symm⟩
  | cons b bytes ih =>
    rw [(ih b).1, (ih b).2, big, little]
    exact ⟨add_assoc _ _ _, add_assoc _ _ _⟩

theorem append_eq (first second : List UInt8) :
    big (first ++ second) =
        big first + (if first.length % 2 = 0 then big second else little second) ∧
      little (first ++ second) =
        little first + (if first.length % 2 = 0 then little second else big second) := by
  induction first with
  | nil => exact ⟨(zero_add _).symm, (zero_add _).symm⟩
  | cons a first ih =>
    rw [List.cons_append, (cons_eq a _).1, (cons_eq a _).2, (cons_eq a first).1,
      (cons_eq a first).2, ih.1, ih.2, List.length_cons]
    by_cases even : first.length % 2 = 0
    · have odd : ¬(first.length + 1) % 2 = 0 := by omega
      rw [if_pos even, if_pos even, if_neg odd, if_neg odd]
      exact ⟨(add_assoc _ _ _).symm, (add_assoc _ _ _).symm⟩
    · have odd : (first.length + 1) % 2 = 0 := by omega
      rw [if_neg even, if_neg even, if_pos odd, if_pos odd]
      exact ⟨(add_assoc _ _ _).symm, (add_assoc _ _ _).symm⟩

theorem big_append (first second : List UInt8) (even : first.length % 2 = 0) :
    big (first ++ second) = big first + big second := by
  rw [(append_eq first second).1, if_pos even]

theorem little_append (first second : List UInt8) (even : first.length % 2 = 0) :
    little (first ++ second) = little first + little second := by
  rw [(append_eq first second).2, if_pos even]

theorem nonneg (bytes : List UInt8) : 0 ≤ big bytes ∧ 0 ≤ little bytes := by
  induction bytes with
  | nil => exact ⟨Int.le_refl 0, Int.le_refl 0⟩
  | cons a bytes ih =>
    rw [(cons_eq a bytes).1, (cons_eq a bytes).2]
    omega

theorem pos_of_mem {bytes : List UInt8} {a : UInt8} (inside : a ∈ bytes) (some_bit : a ≠ 0) :
    0 < big bytes ∧ 0 < little bytes := by
  induction bytes with
  | nil => cases inside
  | cons b bytes ih =>
    have rest := nonneg bytes
    rw [(cons_eq b bytes).1, (cons_eq b bytes).2]
    rcases List.mem_cons.1 inside with rfl | inside
    · have pos : 0 < a.toNat := Nat.pos_of_ne_zero fun zero =>
        some_bit (UInt8.toNat_inj.1 zero)
      omega
    · have pos := ih inside
      omega

theorem little_modEq (bytes : List UInt8) : little bytes ≡ 256 * big bytes [ZMOD 65535] := by
  induction bytes using little.induct with
  | case1 => rfl
  | case2 a =>
    rw [little, big, Int.modEq_iff_dvd]
    exact ⟨a.toNat, by ring⟩
  | case3 a b bytes ih =>
    rw [little, big, mul_add]
    refine Int.ModEq.add ?_ ih
    rw [Int.modEq_iff_dvd]
    exact ⟨a.toNat, by ring⟩

theorem big_modEq (bytes : List UInt8) : big bytes ≡ 256 * little bytes [ZMOD 65535] := by
  have twice := (little_modEq bytes).mul_left 256
  refine Int.ModEq.trans ?_ twice.symm
  rw [Int.modEq_iff_dvd]
  exact ⟨big bytes, by ring⟩

theorem toNat_swap (word : BitVec 16) :
    (swap word).toNat = 256 * (word.toNat % 256) + word.toNat / 256 := by
  have small := word.isLt
  rw [swap, toNat_word, BitVec.extractLsb'_toNat, BitVec.extractLsb'_toNat, Nat.shiftRight_zero,
    Nat.shiftRight_eq_div_pow]
  omega

theorem swap_modEq (word : BitVec 16) : ((swap word).toNat : ℤ) ≡ 256 * word.toNat [ZMOD 65535] := by
  rw [toNat_swap, Int.modEq_iff_dvd]
  refine ⟨(word.toNat / 256 : Nat), ?_⟩
  omega

theorem swap_swap (word : BitVec 16) : swap (swap word) = word := by
  apply BitVec.eq_of_toNat_eq
  have small := word.isLt
  rw [toNat_swap, toNat_swap]
  omega

theorem not_swap (word : BitVec 16) : ~~~swap word = swap (~~~word) := by
  apply BitVec.eq_of_toNat_eq
  have small := word.isLt
  rw [BitVec.toNat_not, toNat_swap, toNat_swap, BitVec.toNat_not]
  omega

theorem total_nonneg (words : List (BitVec 16)) : 0 ≤ total words := by
  induction words with
  | nil => exact Int.le_refl 0
  | cons word words ih =>
    rw [total_cons]
    omega

theorem foldl_add_pos {words : List (BitVec 16)} {sum : BitVec 16}
    (some_bit : 0 < sum.toNat + total words) : 0 < (words.foldl add sum).toNat := by
  induction words generalizing sum with
  | nil =>
    rw [List.foldl_nil]
    have none : total [] = 0 := rfl
    omega
  | cons word words ih =>
    rw [total_cons] at some_bit
    have rest := total_nonneg words
    apply ih
    rw [toNat_add]
    split_ifs with around
    · omega
    · omega

theorem foldl_add_eq_ones_iff {words : List (BitVec 16)} (some_bit : 0 < total words) :
    words.foldl add 0 = 0xFFFF ↔ total words ≡ 0 [ZMOD 65535] := by
  have zero : (0 : BitVec 16).toNat = 0 := rfl
  have sums := modEq_foldl words 0
  have pos := @foldl_add_pos words 0 (by rw [zero]; omega)
  have small := (words.foldl add 0).isLt
  rw [zero, Nat.cast_zero, zero_add] at sums
  rw [← BitVec.toNat_inj, show (0xFFFF : BitVec 16).toNat = 65535 from rfl]
  unfold Int.ModEq at sums ⊢
  omega

/-- What pieces come to too much if each is summed as if it began at an even place, and the first
begins at `start`. -/
def misplaced : Nat → List (List UInt8) → ℤ
  | _, [] => 0
  | start, piece :: pieces =>
    (if start % 2 = 0 then 0 else little piece - big piece) +
      misplaced (start + piece.length) pieces

theorem sum_map_little (start : Nat) (pieces : List (List UInt8)) :
    (pieces.map little).sum = (if start % 2 = 0 then little pieces.flatten
      else big pieces.flatten) + misplaced start pieces := by
  induction pieces generalizing start with
  | nil =>
    rw [List.flatten_nil]
    split <;> rfl
  | cons piece pieces ih =>
    rw [List.map_cons, List.sum_cons, ih (start + piece.length), List.flatten_cons, misplaced,
      (append_eq piece _).1, (append_eq piece _).2]
    split_ifs <;> omega

theorem misplaced_eq_zero {pieces : List (List UInt8)}
    (even : ∀ piece ∈ pieces.dropLast, piece.length % 2 = 0) {start : Nat}
    (place : start % 2 = 0) : misplaced start pieces = 0 := by
  induction pieces generalizing start with
  | nil => rfl
  | cons piece pieces ih =>
    rw [misplaced, if_pos place, zero_add]
    cases pieces with
    | nil => rfl
    | cons next pieces =>
      rw [List.dropLast_cons_cons] at even
      have first := even piece List.mem_cons_self
      exact ih (fun later inside => even later (List.mem_cons_of_mem _ inside)) (by omega)

end Octets

end VendorModules.Lib
