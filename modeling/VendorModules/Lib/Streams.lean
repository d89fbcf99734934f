import Mathlib.Data.List.Basic
import Mathlib.Tactic.IntervalCases
import VendorModules.Lib.Words

namespace VendorModules.Lib

/-! Runs of bytes in a memory, and patterns of which only some bits are looked at. -/

abbrev Memory := Nat → BitVec 8

namespace Memory

variable {mem : Memory} {pos at' : Nat} {bytes more : List (BitVec 8)}

/-- Some bytes written from `pos` on, one after the other. -/
def put (mem : Memory) (pos : Nat) : List (BitVec 8) → Memory
  | [] => mem
  | byte :: bytes => put (Function.update mem pos byte) (pos + 1) bytes

def Holds (mem : Memory) (pos : Nat) (bytes : List (BitVec 8)) : Prop :=
  ∀ i (inside : i < bytes.length), mem (pos + i) = bytes[i]

theorem put_of_lt (bytes : List (BitVec 8)) {i : Nat} (before : i < pos) :
    put mem pos bytes i = mem i := by
  induction bytes generalizing mem pos with
  | nil => rfl
  | cons byte bytes ih =>
    rw [put, ih (by omega), Function.update_of_ne (by omega)]

theorem put_of_le {i : Nat} (after : pos + bytes.length ≤ i) : put mem pos bytes i = mem i := by
  induction bytes generalizing mem pos with
  | nil => rfl
  | cons byte bytes ih =>
    rw [List.length_cons] at after
    rw [put, ih (by omega), Function.update_of_ne (by omega)]

theorem holds_put (mem : Memory) (pos : Nat) (bytes : List (BitVec 8)) :
    Holds (put mem pos bytes) pos bytes := by
  induction bytes generalizing mem pos with
  | nil => exact fun i inside => absurd inside (Nat.not_lt_zero i)
  | cons byte bytes ih =>
    intro i inside
    cases i with
    | zero =>
      change put (Function.update mem pos byte) (pos + 1) bytes pos = byte
      rw [put_of_lt bytes (Nat.lt_succ_self pos), Function.update_self]
    | succ i =>
      have next := ih (Function.update mem pos byte) (pos + 1) i
        (Nat.lt_of_succ_lt_succ inside)
      rwa [Nat.add_right_comm, Nat.add_assoc] at next

theorem Holds.put_apart (held : Holds mem pos bytes)
    (apart : pos + bytes.length ≤ at' ∨ at' + more.length ≤ pos) :
    Holds (put mem at' more) pos bytes := by
  intro i inside
  rw [← held i inside]
  rcases apart with before | after
  · exact put_of_lt more (by omega)
  · exact put_of_le (by omega)

theorem holds_append :
    Holds mem pos (bytes ++ more) ↔ Holds mem pos bytes ∧ Holds mem (pos + bytes.length) more := by
  constructor
  · intro held
    constructor
    · intro i inside
      rw [held i (by rw [List.length_append]; omega), List.getElem_append_left inside]
    · intro i inside
      rw [Nat.add_assoc, held (bytes.length + i) (by rw [List.length_append]; omega),
        List.getElem_append_right (Nat.le_add_right _ _)]
      simp only [Nat.add_sub_cancel_left]
  · rintro ⟨first, second⟩ i inside
    by_cases within : i < bytes.length
    · rw [first i within, List.getElem_append_left within]
    · rw [List.getElem_append_right (Nat.not_lt.mp within), ← second]
      congr 1
      omega

theorem Holds.put_end (held : Holds mem pos bytes) (more : List (BitVec 8)) :
    Holds (put mem (pos + bytes.length) more) pos (bytes ++ more) :=
  holds_append.mpr ⟨held.put_apart (Or.inl le_rfl), holds_put mem _ more⟩

def half (mem : Memory) (pos : Nat) : BitVec 16 := mem (pos + 1) ++ mem pos

end Memory

/-- A byte of which only the bits of a mask are looked at. -/
structure Cell where
  mask : BitVec 8
  value : BitVec 8
  deriving DecidableEq, Repr

namespace Cell

open Memory

def full (value : BitVec 8) : Cell := ⟨BitVec.allOnes 8, value⟩

def ofBytes (bytes : List (BitVec 8)) : List Cell := bytes.map full

def values (cells : List Cell) : List (BitVec 8) := cells.map Cell.value

/-- The bits that are looked at are the ones of the value. -/
def Fits (cell : Cell) : Prop := cell.value &&& cell.mask = cell.value

def Matches (mem : Memory) (pos : Nat) : List Cell → Prop
  | [] => True
  | cell :: cells => mem pos &&& cell.mask = cell.value ∧ Matches mem (pos + 1) cells

variable {mem : Memory} {pos : Nat} {cells more : List Cell}

@[simp] theorem matches_nil : Matches mem pos [] ↔ True := Iff.rfl

@[simp] theorem matches_cons {cell : Cell} :
    Matches mem pos (cell :: cells) ↔
      mem pos &&& cell.mask = cell.value ∧ Matches mem (pos + 1) cells := Iff.rfl

theorem matches_append :
    Matches mem pos (cells ++ more) ↔
      Matches mem pos cells ∧ Matches mem (pos + cells.length) more := by
  induction cells generalizing pos with
  | nil => simp
  | cons cell cells ih =>
    rw [List.cons_append, matches_cons, ih, matches_cons, List.length_cons, and_assoc,
      Nat.add_assoc, Nat.add_comm 1]

theorem matches_iff :
    Matches mem pos cells ↔
      ∀ i (inside : i < cells.length), mem (pos + i) &&& cells[i].mask = cells[i].value := by
  induction cells generalizing pos with
  | nil => exact iff_of_true trivial fun i inside => absurd inside (Nat.not_lt_zero i)
  | cons cell cells ih =>
    rw [matches_cons, ih]
    constructor
    · rintro ⟨first, rest⟩ i inside
      cases i with
      | zero => exact first
      | succ i =>
        rw [← Nat.succ_add_eq_add_succ]
        exact rest i (Nat.lt_of_succ_lt_succ inside)
    · intro all
      refine ⟨all 0 (Nat.zero_lt_succ _), fun i inside => ?_⟩
      have next := all (i + 1) (Nat.succ_lt_succ inside)
      rwa [← Nat.succ_add_eq_add_succ] at next

theorem Matches.of_holds (fits : ∀ cell ∈ cells, cell.Fits) (held : Holds mem pos (values cells)) :
    Matches mem pos cells := by
  rw [matches_iff]
  intro i inside
  rw [held i (by simpa [values] using inside)]
  simp only [values, List.getElem_map]
  exact fits _ (List.getElem_mem inside)

theorem matches_ofBytes {bytes : List (BitVec 8)} :
    Matches mem pos (ofBytes bytes) ↔ Holds mem pos bytes := by
  rw [matches_iff, Holds]
  simp only [ofBytes, List.length_map, List.getElem_map, full, BitVec.and_allOnes]

@[simp] theorem values_ofBytes (bytes : List (BitVec 8)) : values (ofBytes bytes) = bytes := by
  simp [values, ofBytes, Function.comp_def, full]

@[simp] theorem values_append (cells more : List Cell) :
    values (cells ++ more) = values cells ++ values more := List.map_append

@[simp] theorem length_values (cells : List Cell) : (values cells).length = cells.length := by
  simp [values]

@[simp] theorem length_ofBytes (bytes : List (BitVec 8)) : (ofBytes bytes).length = bytes.length := by
  simp [ofBytes]

theorem fits_ofBytes {bytes : List (BitVec 8)} : ∀ cell ∈ ofBytes bytes, cell.Fits := by
  intro cell member
  obtain ⟨byte, -, rfl⟩ := List.mem_map.mp member
  exact BitVec.and_allOnes

theorem matches_early {k : Nat} (some_places : 0 < k)
    (zeros : ∀ i < k, mem (pos + i) = 0) (held : Holds mem (pos + k) (values cells)) :
    Matches mem pos cells ↔ ∀ cell ∈ cells, cell.value = 0 := by
  have later (i : Nat) (inside : i < cells.length) : mem (pos + (k + i)) = cells[i].value := by
    rw [← Nat.add_assoc, held i (by rwa [length_values])]
    simp only [values, List.getElem_map]
  constructor
  · intro all
    rw [matches_iff] at all
    have zero (i : Nat) (inside : i < cells.length) : cells[i].value = 0 := by
      induction i using Nat.strong_induction_on with
      | _ i ih =>
        rw [← all i inside]
        by_cases early : i < k
        · rw [zeros i early]
          exact BitVec.zero_and
        · have before := later (i - k) (by omega)
          rw [Nat.add_sub_cancel' (Nat.not_lt.mp early), ih (i - k) (by omega)] at before
          rw [before]
          exact BitVec.zero_and
    intro cell member
    obtain ⟨i, inside, rfl⟩ := List.getElem_of_mem member
    exact zero i inside
  · intro zero
    rw [matches_iff]
    intro i inside
    rw [zero _ (List.getElem_mem inside)]
    by_cases early : i < k
    · rw [zeros i early]
      exact BitVec.zero_and
    · have before := later (i - k) (by omega)
      rw [Nat.add_sub_cancel' (Nat.not_lt.mp early), zero _ (List.getElem_mem _)] at before
      rw [before]
      exact BitVec.zero_and

theorem matches_late {k n : Nat} (some_places : 0 < k) (enough : k ≤ n)
    (held : Holds mem pos (values cells ++ List.replicate n 0)) :
    Matches mem (pos + k) cells ↔ ∀ cell ∈ cells, cell.value = 0 := by
  obtain ⟨values_held, zeros_held⟩ := holds_append.mp held
  have within (i : Nat) (inside : i < cells.length) : mem (pos + i) = cells[i].value := by
    rw [values_held i (by rwa [length_values])]
    simp only [values, List.getElem_map]
  have beyond (i : Nat) (past : cells.length ≤ i) (near : i < cells.length + n) :
      mem (pos + i) = 0 := by
    have zero := zeros_held (i - cells.length) (by rw [List.length_replicate]; omega)
    rwa [List.getElem_replicate, length_values, Nat.add_assoc, Nat.add_sub_cancel' past] at zero
  constructor
  · intro all
    rw [matches_iff] at all
    have zero (d i : Nat) (inside : i < cells.length) (far : cells.length - i = d) :
        cells[i].value = 0 := by
      induction d using Nat.strong_induction_on generalizing i with
      | _ d ih =>
        rw [← all i inside, Nat.add_assoc]
        by_cases late : cells.length ≤ k + i
        · rw [beyond (k + i) late (by omega)]
          exact BitVec.zero_and
        · rw [within (k + i) (by omega), ih (cells.length - (k + i)) (by omega) (k + i) _ rfl]
          exact BitVec.zero_and
    intro cell member
    obtain ⟨i, inside, rfl⟩ := List.getElem_of_mem member
    exact zero _ i inside rfl
  · intro zero
    rw [matches_iff]
    intro i inside
    rw [zero _ (List.getElem_mem inside), Nat.add_assoc]
    by_cases late : cells.length ≤ k + i
    · rw [beyond (k + i) late (by omega)]
      exact BitVec.zero_and
    · rw [within (k + i) (by omega), zero _ (List.getElem_mem _)]
      exact BitVec.zero_and

end Cell

namespace Words

open Memory

def bytes32 (value : BitVec 32) : List (BitVec 8) :=
  [byte value 0, byte value 1, byte value 2, byte value 3]

def bytes16 (value : BitVec 16) : List (BitVec 8) :=
  [value.extractLsb' 0 8, value.extractLsb' 8 8]

@[simp] theorem length_bytes32 (value : BitVec 32) : (bytes32 value).length = 4 := rfl

@[simp] theorem length_bytes16 (value : BitVec 16) : (bytes16 value).length = 2 := rfl

theorem byte_word (mem : Memory) (pos lane : Nat) (small : lane < 4) :
    byte (word mem pos) lane = mem (pos + lane) := by
  rw [byte, word]
  apply BitVec.eq_of_getLsbD_eq
  intro i bound
  simp only [BitVec.getLsbD_extractLsb', BitVec.getLsbD_append, bound, decide_true, Bool.true_and]
  interval_cases lane
  · simp [show i < 8 by omega]
  · simp only [show ¬8 * 1 + i < 8 by omega, show 8 * 1 + i - 8 = i by omega, bound, if_true,
      if_false]
  · simp only [show ¬8 * 2 + i < 8 by omega, show ¬8 * 2 + i - 8 < 8 by omega,
      show 8 * 2 + i - 8 - 8 = i by omega, bound, if_true, if_false]
  · simp only [show ¬8 * 3 + i < 8 by omega, show ¬8 * 3 + i - 8 < 8 by omega,
      show ¬8 * 3 + i - 8 - 8 < 8 by omega, show 8 * 3 + i - 8 - 8 - 8 = i by omega, if_false]

theorem word_eq_iff {mem : Memory} {pos : Nat} {value : BitVec 32} :
    word mem pos = value ↔ Holds mem pos (bytes32 value) := by
  constructor
  · rintro rfl i inside
    rw [length_bytes32] at inside
    rw [← byte_word mem pos i inside]
    interval_cases i <;> rfl
  · intro held
    have lane (i : Nat) (small : i < 4) : mem (pos + i) = byte value i := by
      rw [held i small]
      interval_cases i <;> rfl
    rw [word, lane 3 (by omega), lane 2 (by omega), lane 1 (by omega)]
    rw [show mem pos = byte value 0 from lane 0 (by omega)]
    exact append_bytes value

theorem half_eq_iff {mem : Memory} {pos : Nat} {value : BitVec 16} :
    half mem pos = value ↔ Holds mem pos (bytes16 value) := by
  constructor
  · rintro rfl i inside
    rw [length_bytes16] at inside
    interval_cases i
    · exact (BitVec.extractLsb'_append_eq_right).symm
    · exact (BitVec.extractLsb'_append_eq_left).symm
  · intro held
    have low : mem pos = value.extractLsb' 0 8 := held 0 Nat.zero_lt_two
    have high : mem (pos + 1) = value.extractLsb' 8 8 := held 1 Nat.one_lt_two
    rw [half, low, high]
    exact BitVec.extractLsb'_append_extractLsb'_eq_extractLsb' rfl |>.trans
      (BitVec.extractLsb'_eq_self)

end Words

end VendorModules.Lib
