import Mathlib.Data.Finset.Card

namespace VendorModules.Lib

variable {α : Type*}

def population (slots : Finset α) (marked : α → Bool) : Nat :=
  (slots.filter (fun i => marked i = true)).card

section

variable {slots : Finset α} {marked marked' : α → Bool} {e : α}

theorem population_congr (agree : ∀ i ∈ slots, marked' i = marked i) :
    population slots marked' = population slots marked := by
  refine congrArg Finset.card (Finset.filter_congr fun i member => ?_)
  rw [agree i member]

theorem population_eq_zero (vacant : ∀ i ∈ slots, marked i = false) :
    population slots marked = 0 := by
  rw [population, Finset.card_eq_zero, Finset.filter_eq_empty_iff]
  intro i member
  simp [vacant i member]

variable [DecidableEq α]

theorem population_mark (slots : Finset α) (free : marked e = false)
    (marks : ∀ i, marked' i = if i = e then true else marked i) :
    population slots marked' = population slots marked + if e ∈ slots then 1 else 0 := by
  by_cases member : e ∈ slots
  · have outside : e ∉ slots.filter (fun i => marked i = true) := by
      simp [free]
    rw [if_pos member, population, population, ← Finset.card_insert_of_notMem outside]
    congr 1
    ext i
    rw [Finset.mem_filter, Finset.mem_insert, Finset.mem_filter, marks]
    by_cases same : i = e
    · simp [same, member]
    · simp [same]
  · rw [if_neg member, Nat.add_zero]
    refine population_congr fun i inside => ?_
    rw [marks, if_neg]
    rintro rfl
    exact member inside

theorem population_clear (slots : Finset α) (busy : marked e = true)
    (clears : ∀ i, marked' i = if i = e then false else marked i) :
    population slots marked' = population slots marked - if e ∈ slots then 1 else 0 := by
  have grown : population slots marked =
      population slots marked' + if e ∈ slots then 1 else 0 := by
    apply population_mark slots
    · rw [clears, if_pos rfl]
    · intro i
      rw [clears]
      split_ifs with same
      · rw [same, busy]
      · rfl
  rw [grown, Nat.add_sub_cancel]

end

end VendorModules.Lib
