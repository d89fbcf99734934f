import Mathlib.Data.BitVec

/-!
# Words in byte memory

A 32-bit word lies in four bytes of a memory, the lowest byte first.
-/

namespace VendorModules.Lib.Words

/-- The word whose lowest byte is at `pos`. -/
def word (bytes : Nat → BitVec 8) (pos : Nat) : BitVec 32 :=
  bytes (pos + 3) ++ bytes (pos + 2) ++ bytes (pos + 1) ++ bytes pos

/-- Byte `lane` of a word. -/
def byte (value : BitVec 32) (lane : Nat) : BitVec 8 := value.extractLsb' (8 * lane) 8

def store (bytes : Nat → BitVec 8) (pos : Nat) (value : BitVec 32) : Nat → BitVec 8 :=
  fun i => if pos ≤ i ∧ i < pos + 4 then byte value (i - pos) else bytes i

def spread (words : Nat → BitVec 32) : Nat → BitVec 8 := fun i => byte (words (i / 4)) (i % 4)

theorem append_bytes (value : BitVec 32) :
    byte value 3 ++ byte value 2 ++ byte value 1 ++ byte value 0 = value := by
  apply BitVec.eq_of_getLsbD_eq
  intro i bound
  simp only [byte, BitVec.getLsbD_append, BitVec.getLsbD_extractLsb']
  split_ifs with first second third
  · simp [first]
  · have lane : 8 * 1 + (i - 8) = i := by omega
    simp [lane, show i - 8 < 8 by omega]
  · have lane : 8 * 2 + (i - 8 - 8) = i := by omega
    simp [lane, show i - 8 - 8 < 8 by omega]
  · have lane : 8 * 3 + (i - 8 - 8 - 8) = i := by omega
    simp [lane, show i - 8 - 8 - 8 < 8 by omega]

@[simp] theorem word_store (bytes : Nat → BitVec 8) (pos : Nat) (value : BitVec 32) :
    word (store bytes pos value) pos = value := by
  have lane : ∀ k, k < 4 → store bytes pos value (pos + k) = byte value k := by
    intro k small
    simp [store, small]
  have first : store bytes pos value pos = byte value 0 := lane 0 (by omega)
  unfold word
  rw [lane 3 (by omega), lane 2 (by omega), lane 1 (by omega), first]
  exact append_bytes value

theorem word_spread (words : Nat → BitVec 32) (k : Nat) :
    word (spread words) (4 * k) = words k := by
  have lane : ∀ i, i < 4 → spread words (4 * k + i) = byte (words k) i := by
    intro i small
    have index : (4 * k + i) / 4 = k := by omega
    have rest : (4 * k + i) % 4 = i := by omega
    simp [spread, index, rest]
  have first : spread words (4 * k) = byte (words k) 0 := lane 0 (by omega)
  unfold word
  rw [lane 3 (by omega), lane 2 (by omega), lane 1 (by omega), first]
  exact append_bytes (words k)

end VendorModules.Lib.Words

/-!
# Bit fields of a machine word

A field is a number of bits from an index on. Setting a field keeps the fields beside it.
-/

namespace VendorModules.Lib.BitField

variable {w : Nat}

/-- A mask of `bits` ones. -/
def mask (w bits : Nat) : BitVec w := BitVec.ofNat w (2 ^ bits - 1)

def get (value : BitVec w) (index bits : Nat) : BitVec w := (value >>> index) &&& mask w bits

def set (value : BitVec w) (index bits : Nat) (field : BitVec w) : BitVec w :=
  (value &&& ~~~(mask w bits <<< index)) ||| ((field &&& mask w bits) <<< index)

theorem getLsbD_mask (bits i : Nat) : (mask w bits).getLsbD i = decide (i < w ∧ i < bits) := by
  rw [mask, BitVec.getLsbD_ofNat, Nat.testBit_two_pow_sub_one, Bool.decide_and]

theorem getLsbD_get (value : BitVec w) (index bits i : Nat) :
    (get value index bits).getLsbD i = (value.getLsbD (index + i) && decide (i < bits)) := by
  rw [get, BitVec.getLsbD_and, BitVec.getLsbD_ushiftRight, getLsbD_mask]
  by_cases inside : i < w
  · simp [inside]
  · have beyond : value.getLsbD (index + i) = false := BitVec.getLsbD_of_ge _ _ (by omega)
    simp [beyond]

theorem getLsbD_set (value field : BitVec w) (index bits i : Nat) :
    (set value index bits field).getLsbD i =
      if index ≤ i ∧ i < index + bits then decide (i < w) && field.getLsbD (i - index)
      else value.getLsbD i := by
  simp only [set, BitVec.getLsbD_or, BitVec.getLsbD_and, BitVec.getLsbD_not,
    BitVec.getLsbD_shiftLeft, getLsbD_mask]
  by_cases inside : i < w
  · split_ifs with field
    · have low : ¬i < index := by omega
      have near : i - index < bits := by omega
      have word : i - index < w := by omega
      simp [inside, low, near, word]
    · by_cases low : i < index
      · simp [inside, low]
      · have far : ¬i - index < bits := by omega
        simp [inside, low, far]
  · have beyond : value.getLsbD i = false := BitVec.getLsbD_of_ge _ _ (by omega)
    simp [inside, beyond]

theorem get_set (value field : BitVec w) {index bits : Nat} (fits : index + bits ≤ w) :
    get (set value index bits field) index bits = field &&& mask w bits := by
  apply BitVec.eq_of_getLsbD_eq
  intro i inside
  rw [getLsbD_get, getLsbD_set, BitVec.getLsbD_and, getLsbD_mask]
  by_cases near : i < bits
  · have word : index + i < w := by omega
    simp [near, word, inside]
  · simp [near]

theorem get_set_of_disjoint (value field : BitVec w) {index bits index' bits' : Nat}
    (apart : index + bits ≤ index' ∨ index' + bits' ≤ index) :
    get (set value index' bits' field) index bits = get value index bits := by
  apply BitVec.eq_of_getLsbD_eq
  intro i _
  rw [getLsbD_get, getLsbD_get, getLsbD_set]
  by_cases near : i < bits
  · have outside : ¬(index' ≤ index + i ∧ index + i < index' + bits') := by omega
    rw [if_neg outside]
  · simp [near]

end VendorModules.Lib.BitField
