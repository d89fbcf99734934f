import Mathlib.Algebra.BigOperators.Group.Finset.Basic
import Mathlib.Algebra.Order.BigOperators.Group.Finset
import Mathlib.Data.List.Perm.Subperm

namespace VendorModules.Lib

variable {α : Type*} [DecidableEq α]

/-! Groups whose members report once for each time they belong. A member that has ended
has reported or its report is under way, one that has not has no report anywhere. -/

structure Tally (members reported : List α) (flight : α → Nat) (ended : α → Prop)
    [DecidablePred ended] : Prop where
  balance : ∀ a, flight a + reported.count a = if ended a then members.count a else 0

namespace Tally

variable {members reported : List α} {flight flight' : α → Nat} {ended ended' : α → Prop}
  [DecidablePred ended] [DecidablePred ended'] {a : α}

theorem empty (quiet : ∀ a, flight a = 0) : Tally [] [] flight ended :=
  ⟨fun a => by simp [quiet a]⟩

theorem le (tally : Tally members reported flight ended) (a : α) :
    flight a + reported.count a ≤ members.count a := by
  rw [tally.balance a]
  split
  · exact Nat.le_refl _
  · exact Nat.zero_le _

theorem ended_of_flight (tally : Tally members reported flight ended) (under : 0 < flight a) :
    ended a := by
  have balance := tally.balance a
  split at balance
  · assumption
  · omega

theorem ended_of_reported (tally : Tally members reported flight ended)
    (member : a ∈ reported) : ended a := by
  have counted := List.count_pos_iff.mpr member
  have balance := tally.balance a
  split at balance
  · assumption
  · omega

theorem mem_of_flight (tally : Tally members reported flight ended) (under : 0 < flight a) :
    a ∈ members := by
  have := tally.le a
  exact List.count_pos_iff.mp (by omega)

theorem mem_of_reported (tally : Tally members reported flight ended)
    (member : a ∈ reported) : a ∈ members := by
  have counted := List.count_pos_iff.mpr member
  have := tally.le a
  exact List.count_pos_iff.mp (by omega)

theorem subperm (tally : Tally members reported flight ended) : reported.Subperm members :=
  List.subperm_iff_count.mpr fun a => by
    have := tally.le a
    omega

theorem length_le (tally : Tally members reported flight ended) :
    reported.length ≤ members.length :=
  tally.subperm.length_le

theorem length_eq_iff (tally : Tally members reported flight ended) :
    reported.length = members.length ↔ ∀ a ∈ members, ended a ∧ flight a = 0 := by
  constructor
  · intro equal a member
    have counts := (tally.subperm.perm_of_length_le (by omega)).count_eq a
    have counted := List.count_pos_iff.mpr member
    have balance := tally.balance a
    split at balance
    · exact ⟨‹_›, by omega⟩
    · omega
  · intro all
    refine (List.perm_iff_count.mpr fun a => ?_).length_eq
    have balance := tally.balance a
    by_cases member : a ∈ members
    · obtain ⟨done, none⟩ := all a member
      rw [if_pos done, none] at balance
      omega
    · have absent := List.count_eq_zero.mpr member
      have := tally.le a
      omega

theorem length_lt (tally : Tally members reported flight ended) (under : 0 < flight a) :
    reported.length < members.length := by
  refine Nat.lt_of_le_of_ne tally.length_le fun equal => ?_
  have := (tally.length_eq_iff.mp equal a (tally.mem_of_flight under)).2
  omega

theorem congr (tally : Tally members reported flight ended)
    (sameFlight : ∀ a, flight' a = flight a)
    (sameEnded : ∀ a ∈ members, (ended' a ↔ ended a)) :
    Tally members reported flight' ended' := by
  refine ⟨fun a => ?_⟩
  rw [sameFlight a, tally.balance a]
  by_cases member : a ∈ members
  · simp only [sameEnded a member]
  · simp [List.count_eq_zero.mpr member]

theorem report (tally : Tally members reported flight ended)
    (arrives : flight a = flight' a + 1) (frame : ∀ b, b ≠ a → flight' b = flight b) :
    Tally members (reported ++ [a]) flight' ended := by
  refine ⟨fun b => ?_⟩
  have balance := tally.balance b
  by_cases same : b = a
  · subst same
    rw [List.count_append, List.count_singleton_self]
    omega
  · rw [List.count_append, List.count_singleton, frame b same]
    simpa [Ne.symm same] using balance

theorem finish (tally : Tally members reported flight ended) (pending : ¬ ended a)
    (ends : ended' a) (sends : flight' a = flight a + members.count a)
    (frame : ∀ b, b ≠ a → flight' b = flight b ∧ (ended' b ↔ ended b)) :
    Tally members reported flight' ended' := by
  refine ⟨fun b => ?_⟩
  have balance := tally.balance b
  by_cases same : b = a
  · subst same
    rw [if_neg pending] at balance
    rw [if_pos ends]
    omega
  · simp only [(frame b same).1, (frame b same).2, balance]

theorem join (tally : Tally members reported flight ended) (pending : ¬ ended a) :
    Tally (members ++ [a]) reported flight ended := by
  refine ⟨fun b => ?_⟩
  have balance := tally.balance b
  by_cases same : b = a
  · subst same
    rw [if_neg pending] at balance ⊢
    exact balance
  · rw [balance, List.count_append, List.count_singleton]
    simp [Ne.symm same]

theorem joinEnded (tally : Tally members reported flight ended) (done : ended a) :
    Tally (members ++ [a]) (reported ++ [a]) flight ended := by
  refine ⟨fun b => ?_⟩
  have balance := tally.balance b
  by_cases same : b = a
  · subst same
    rw [if_pos done] at balance ⊢
    rw [List.count_append, List.count_append, List.count_singleton_self]
    omega
  · rw [List.count_append, List.count_append, List.count_singleton]
    simpa [Ne.symm same] using balance

end Tally

theorem length_le_mul_of_count_le {l : List Nat} {n k : Nat} (bounded : ∀ a ∈ l, a < n)
    (counts : ∀ a, l.count a ≤ k) : l.length ≤ n * k := by
  have total : l.length = ∑ a ∈ Finset.range n, l.count a := by
    rw [← List.sum_toFinset_count_eq_length l]
    refine Finset.sum_subset (fun a member => ?_) (fun a _ absent => ?_)
    · exact Finset.mem_range.mpr (bounded a (List.mem_toFinset.mp member))
    · exact List.count_eq_zero.mpr fun member => absent (List.mem_toFinset.mpr member)
  calc l.length = ∑ a ∈ Finset.range n, l.count a := total
    _ ≤ ∑ _a ∈ Finset.range n, k := Finset.sum_le_sum fun a _ => counts a
    _ = n * k := by simp

section Replace

variable {l : List α} {a b c : α}

theorem replace_cons_ne (differs : a ≠ c) : (c :: l).replace a b = c :: l.replace a b := by
  simp [List.replace_cons, beq_false_of_ne differs]

theorem mem_replace (member : c ∈ l.replace a b) : c = b ∨ c ∈ l := by
  induction l with
  | nil => cases member
  | cons x l ih =>
    by_cases head : a = x
    · subst head
      rw [List.replace_cons_self] at member
      exact (List.mem_cons.mp member).imp_right (List.mem_cons_of_mem _)
    · rw [replace_cons_ne head] at member
      rcases List.mem_cons.mp member with rfl | later
      · exact .inr (List.mem_cons_self ..)
      · exact (ih later).imp_right (List.mem_cons_of_mem _)

theorem count_replace_new (member : a ∈ l) (differs : b ≠ a) :
    (l.replace a b).count b = l.count b + 1 := by
  induction l with
  | nil => cases member
  | cons x l ih =>
    by_cases head : a = x
    · subst head
      simp [differs.symm]
    · have later : a ∈ l := (List.mem_cons.mp member).resolve_left head
      rw [replace_cons_ne head, List.count_cons, List.count_cons, ih later]
      omega

theorem count_replace_other (old : c ≠ a) (new : c ≠ b) :
    (l.replace a b).count c = l.count c := by
  induction l with
  | nil => rfl
  | cons x l ih =>
    by_cases head : a = x
    · subst head
      simp [old.symm, new.symm]
    · rw [replace_cons_ne head, List.count_cons, List.count_cons, ih]

end Replace

end VendorModules.Lib
