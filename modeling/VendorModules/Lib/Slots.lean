import Mathlib.Data.List.Basic
import Mathlib.Logic.Function.Iterate

namespace VendorModules.Lib

/-! Slots of a list that are taken and given back, and a table whose entries are changed one after
the other. -/

section Slots

variable {α : Type*} [BEq α]

/-- The first `count` slots that hold `old` get `new`. -/
def refill (old new : α) (count : Nat) (slots : List α) : List α :=
  (fun slots => slots.replace old new)^[count] slots

/-- How many slots before the first that holds `new` hold `old`. -/
def freeBefore (old new : α) : List α → Nat
  | [] => 0
  | a :: slots =>
    if a == new then 0 else (if a == old then 1 else 0) + freeBefore old new slots

variable {old new : α} {count : Nat}

@[simp] theorem refill_zero (slots : List α) : refill old new 0 slots = slots := rfl

@[simp] theorem refill_nil : refill old new count [] = [] := by
  induction count with
  | zero => rfl
  | succ count ih => exact ih

theorem refill_succ (slots : List α) :
    refill old new (count + 1) slots = refill old new count (slots.replace old new) := rfl

theorem length_refill (slots : List α) : (refill old new count slots).length = slots.length := by
  induction count generalizing slots with
  | zero => rfl
  | succ count ih => rw [refill_succ, ih, List.length_replace]

variable [LawfulBEq α]

theorem refill_cons_of_ne {a : α} (other : a ≠ old) (slots : List α) :
    refill old new count (a :: slots) = a :: refill old new count slots := by
  induction count generalizing slots with
  | zero => rfl
  | succ count ih =>
    have passes : (a :: slots).replace old new = a :: slots.replace old new := by
      rw [List.replace_cons, beq_false_of_ne other.symm]
    rw [refill_succ, passes, ih, refill_succ]

theorem refill_succ_cons (different : new ≠ old) (slots : List α) :
    refill old new (count + 1) (old :: slots) = new :: refill old new count slots := by
  rw [refill_succ, List.replace_cons_self, refill_cons_of_ne different]

theorem refill_self (slots : List α) : refill old old count slots = slots := by
  induction count with
  | zero => rfl
  | succ count ih =>
    have same : slots.replace old old = slots := by
      clear ih
      induction slots with
      | nil => rfl
      | cons a slots ih =>
        rw [List.replace_cons, ih]
        split
        · rename_i here
          rw [eq_of_beq here]
        · rfl
    rw [refill_succ, same, ih]

theorem count_refill (different : new ≠ old) (slots : List α) :
    (refill old new count slots).count old = slots.count old - count := by
  induction slots generalizing count with
  | nil => simp
  | cons a slots ih =>
    by_cases here : a = old
    · subst here
      cases count with
      | zero => rfl
      | succ count =>
        rw [refill_succ_cons different, List.count_cons_of_ne different, ih,
          List.count_cons_self]
        omega
    · rw [refill_cons_of_ne here, List.count_cons_of_ne here, ih, List.count_cons_of_ne here]

theorem refill_eq_self_iff (different : new ≠ old) {slots : List α}
    (enough : count ≤ slots.count old) : refill old new count slots = slots ↔ count = 0 := by
  constructor
  · intro same
    have left := @count_refill _ _ old new count _ different slots
    rw [same] at left
    omega
  · rintro rfl
    rfl

/-- Slots are given back as they were exactly if either none held the new value before and all
those taken are cleared, or as many are cleared as were taken and these come first. -/
theorem refill_refill_eq_self_iff (different : new ≠ old) {slots : List α} {taken given : Nat}
    (enough : taken ≤ slots.count old) :
    refill new old given (refill old new taken slots) = slots ↔
      (new ∉ slots ∧ taken ≤ given) ∨
        (new ∈ slots ∧ given = taken ∧ taken ≤ freeBefore old new slots) := by
  induction slots generalizing taken given with
  | nil =>
    rw [List.count_nil] at enough
    simp [Nat.le_zero.1 enough]
  | cons a slots ih =>
    by_cases free : a = old
    · subst free
      have head : freeBefore a new (a :: slots) = 1 + freeBefore a new slots := by
        simp [freeBefore, Ne.symm different]
      rw [List.count_cons_self] at enough
      rw [head, List.mem_cons, or_iff_right different]
      cases taken with
      | zero =>
        rw [refill_zero, refill_cons_of_ne different.symm, List.cons.injEq]
        have step := @ih 0 given (Nat.zero_le _)
        rw [refill_zero] at step
        rw [step]
        simp
      | succ taken =>
        rw [refill_succ_cons different]
        cases given with
        | zero =>
          rw [refill_zero, List.cons.injEq]
          simp [different]
        | succ given =>
          rw [refill_succ_cons different.symm, List.cons.injEq,
            ih (Nat.le_of_succ_le_succ enough), Nat.add_comm 1]
          simp
    · rw [List.count_cons_of_ne free] at enough
      rw [refill_cons_of_ne free]
      by_cases used : a = new
      · subst used
        have head : freeBefore old a (a :: slots) = 0 := by simp [freeBefore]
        rw [head]
        have here : a ∈ a :: slots := List.mem_cons_self
        cases given with
        | zero =>
          rw [refill_zero, List.cons.injEq, refill_eq_self_iff different enough]
          simp [here]
          omega
        | succ given =>
          rw [refill_succ_cons different.symm, List.cons.injEq]
          simp [Ne.symm different, here]
          omega
      · have head : freeBefore old new (a :: slots) = freeBefore old new slots := by
          simp [freeBefore, used, free]
        rw [refill_cons_of_ne used, List.cons.injEq, ih enough, head, List.mem_cons,
          or_iff_right (Ne.symm used)]
        simp

end Slots

theorem foldl_update_apply {ι α : Type*} [DecidableEq ι] (change : α → α) (turns : List ι)
    (table : ι → α) (i : ι) :
    turns.foldl (fun table j => Function.update table j (change (table j))) table i =
      change^[turns.count i] (table i) := by
  induction turns generalizing table with
  | nil => rfl
  | cons j turns ih =>
    rw [List.foldl_cons, ih]
    by_cases here : j = i
    · subst here
      rw [Function.update_self, List.count_cons_self, Function.iterate_succ_apply]
    · rw [Function.update_of_ne (Ne.symm here), List.count_cons_of_ne here]

end VendorModules.Lib
