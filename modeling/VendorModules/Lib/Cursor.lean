import Mathlib.Data.List.Basic
import Mathlib.Data.List.Nodup
import Mathlib.Data.List.TakeWhile

namespace VendorModules.Lib

/-! A walk over a list that takes elements off it as it goes. It remembers the last element it
passed, and goes on from there when it has taken one; an element that it only marks is neither
passed nor taken, and so it is walked over again after the next one that is taken. The walk
has a number of steps. -/

inductive Verdict
  | pass
  | mark
  | take
  deriving DecidableEq, Repr

namespace Cursor

variable {α : Type*} (judge : α → Verdict)

/-- The walk behind the passed elements `front` and the marked ones `marks`: the list it
leaves, and the elements it marks. -/
def walk : Nat → List α → List α → List α → List α × List α
  | 0, front, marks, rest => (front ++ marks ++ rest, [])
  | _ + 1, front, marks, [] => (front ++ marks, [])
  | left + 1, front, marks, x :: rest =>
    match judge x with
    | .pass => walk left (front ++ marks ++ [x]) [] rest
    | .mark =>
      let marked := walk left front (marks ++ [x]) rest
      (marked.1, x :: marked.2)
    | .take => walk left front [] (marks ++ rest)

/-- The elements that a walk comes to behind a number of marked ones. -/
def visited : List α → Nat → Nat → List α
  | [], _, _ => []
  | _ :: _, 0, _ => []
  | x :: rest, left + 1, marks =>
    x :: match judge x with
      | .pass => visited rest left 0
      | .mark => visited rest left (marks + 1)
      | .take => visited rest (left - marks) marks

/-- What a walk leaves of them and of those behind them. -/
def remains : List α → Nat → Nat → List α
  | [], _, _ => []
  | x :: rest, 0, _ => x :: rest
  | x :: rest, left + 1, marks =>
    match judge x with
    | .pass => x :: remains rest left 0
    | .mark => x :: remains rest left (marks + 1)
    | .take => remains rest (left - marks) marks

/-- How many marked elements are walked over again on the way through the list. -/
def rewalked (marks : Nat) : List α → Nat
  | [] => 0
  | x :: rest =>
    match judge x with
    | .pass => rewalked 0 rest
    | .mark => rewalked (marks + 1) rest
    | .take => marks + rewalked marks rest

variable {judge} {x : α} {left marked : Nat} {front marks rest before after list : List α}

@[simp] theorem remains_zero : remains judge list 0 marked = list := by
  cases list <;> rfl

@[simp] theorem visited_zero : visited judge list 0 marked = [] := by
  cases list <;> rfl

theorem remains_marks (all : ∀ x ∈ marks, judge x = .mark) :
    remains judge (marks ++ rest) left marked =
      marks ++ remains judge rest (left - marks.length) (marked + marks.length) := by
  induction marks generalizing left marked with
  | nil => simp
  | cons x marks ih =>
    have here := all x List.mem_cons_self
    have others := fun y mem => all y (List.mem_cons_of_mem _ mem)
    cases left with
    | zero => simp
    | succ left =>
      simp only [List.cons_append, remains, here, ih others, List.length_cons]
      rw [Nat.add_sub_add_right, Nat.add_assoc, Nat.add_comm 1]

theorem visited_marks (all : ∀ x ∈ marks, judge x = .mark) :
    visited judge (marks ++ rest) left marked =
      marks.take left ++
        visited judge rest (left - marks.length) (marked + marks.length) := by
  induction marks generalizing left marked with
  | nil => simp
  | cons x marks ih =>
    have here := all x List.mem_cons_self
    have others := fun y mem => all y (List.mem_cons_of_mem _ mem)
    cases left with
    | zero => simp
    | succ left =>
      simp only [List.cons_append, visited, here, ih others, List.length_cons,
        List.take_succ_cons]
      rw [Nat.add_sub_add_right, Nat.add_assoc, Nat.add_comm 1]

theorem all_mark_append (all : ∀ x ∈ marks, judge x = .mark) (verdict : judge x = .mark) :
    ∀ y ∈ marks ++ [x], judge y = .mark := by
  intro y mem
  rcases List.mem_append.1 mem with mem | mem
  · exact all y mem
  · rw [List.mem_singleton.1 mem, verdict]

theorem walk_fst (all : ∀ x ∈ marks, judge x = .mark) :
    (walk judge left front marks rest).1 =
      front ++ marks ++ remains judge rest left marks.length := by
  induction left generalizing front marks rest with
  | zero => simp [walk]
  | succ left ih =>
    cases rest with
    | nil => simp [walk, remains]
    | cons x rest =>
      cases verdict : judge x with
      | pass => simp [walk, remains, verdict, ih]
      | mark =>
        have marked : ∀ y ∈ marks ++ [x], judge y = .mark := by
          intro y mem
          rcases List.mem_append.1 mem with mem | mem
          · exact all y mem
          · rw [List.mem_singleton.1 mem, verdict]
        simp [walk, remains, verdict, ih marked]
      | take => simp [walk, remains, verdict, ih, remains_marks all]

theorem mem_walk_snd (all : ∀ x ∈ marks, judge x = .mark)
    (mem : x ∈ (walk judge left front marks rest).2) :
    x ∈ marks ∨ x ∈ visited judge rest left marks.length ∧ judge x = .mark := by
  induction left generalizing front marks rest with
  | zero => simp [walk] at mem
  | succ left ih =>
    cases rest with
    | nil => simp [walk] at mem
    | cons y rest =>
      cases verdict : judge y with
      | pass =>
        simp only [walk, verdict] at mem
        simp only [visited, verdict, List.mem_cons]
        rcases ih (by simp) mem with none | ⟨later, mark⟩
        · cases none
        · exact .inr ⟨.inr later, mark⟩
      | mark =>
        simp only [walk, verdict, List.mem_cons] at mem
        simp only [visited, verdict, List.mem_cons]
        rcases mem with rfl | mem
        · exact .inr ⟨.inl rfl, verdict⟩
        · rcases ih (all_mark_append all verdict) mem with earlier | ⟨later, mark⟩
          · rcases List.mem_append.1 earlier with earlier | same
            · exact .inl earlier
            · rw [List.mem_singleton.1 same]
              exact .inr ⟨.inl rfl, verdict⟩
          · rw [List.length_append] at later
            exact .inr ⟨.inr later, mark⟩
      | take =>
        simp only [walk, verdict] at mem
        simp only [visited, verdict, List.mem_cons]
        rcases ih (by simp) mem with none | ⟨later, mark⟩
        · cases none
        · rw [List.length_nil, visited_marks all, Nat.zero_add] at later
          rcases List.mem_append.1 later with earlier | later
          · exact .inl (List.mem_of_mem_take earlier)
          · exact .inr ⟨.inr later, mark⟩

theorem mem_walk_snd_of_visited (all : ∀ x ∈ marks, judge x = .mark)
    (later : x ∈ visited judge rest left marks.length) (mark : judge x = .mark) :
    x ∈ (walk judge left front marks rest).2 := by
  induction left generalizing front marks rest with
  | zero => simp at later
  | succ left ih =>
    cases rest with
    | nil => simp [visited] at later
    | cons y rest =>
      cases verdict : judge y with
      | pass =>
        simp only [walk, verdict]
        simp only [visited, verdict, List.mem_cons] at later
        rcases later with rfl | later
        · rw [verdict] at mark
          cases mark
        · exact ih (by simp) later
      | mark =>
        simp only [walk, verdict, List.mem_cons]
        simp only [visited, verdict, List.mem_cons] at later
        rcases later with rfl | later
        · exact .inl rfl
        · refine .inr (ih (all_mark_append all verdict) ?_)
          rw [List.length_append]
          exact later
      | take =>
        simp only [walk, verdict]
        simp only [visited, verdict, List.mem_cons] at later
        rcases later with rfl | later
        · rw [verdict] at mark
          cases mark
        · refine ih (by simp) ?_
          rw [List.length_nil, visited_marks all, Nat.zero_add]
          exact List.mem_append_right _ later

theorem mem_visited (enough : before.length + rewalked judge marked before < left) :
    x ∈ visited judge (before ++ x :: after) left marked := by
  induction before generalizing left marked with
  | nil =>
    cases left with
    | zero => simp at enough
    | succ left => simp [visited]
  | cons y before ih =>
    cases left with
    | zero => simp at enough
    | succ left =>
      simp only [List.length_cons, rewalked] at enough
      simp only [List.cons_append, visited, List.mem_cons]
      right
      cases verdict : judge y with
      | pass =>
        simp only [verdict] at enough
        exact ih (by omega)
      | mark =>
        simp only [verdict] at enough
        exact ih (by omega)
      | take =>
        simp only [verdict] at enough
        exact ih (by omega)

theorem rewalked_eq_zero (unmarked : ∀ x ∈ list, judge x ≠ .mark) :
    rewalked judge 0 list = 0 := by
  induction list with
  | nil => rfl
  | cons x list ih =>
    have others := fun y mem => unmarked y (List.mem_cons_of_mem _ mem)
    cases verdict : judge x with
    | pass => simp [rewalked, verdict, ih others]
    | mark => exact absurd verdict (unmarked x List.mem_cons_self)
    | take => simp [rewalked, verdict, ih others]

theorem visited_subset : visited judge list left marked ⊆ list := by
  induction list generalizing left marked with
  | nil => simp [visited]
  | cons x list ih =>
    cases left with
    | zero => simp
    | succ left =>
      simp only [visited]
      apply List.cons_subset_cons
      cases judge x with
      | pass => exact ih
      | mark => exact ih
      | take => exact ih

theorem visited_sublist (few : left ≤ before.length + rewalked judge marked before) :
    (visited judge (before ++ x :: after) left marked).Sublist before := by
  induction before generalizing left marked with
  | nil =>
    have none : left = 0 := by simpa [rewalked] using few
    simp [none]
  | cons y before ih =>
    cases left with
    | zero => simp
    | succ left =>
      simp only [List.length_cons, rewalked] at few
      simp only [List.cons_append, visited]
      apply List.Sublist.cons_cons
      cases verdict : judge y with
      | pass =>
        simp only [verdict] at few
        exact ih (by omega)
      | mark =>
        simp only [verdict] at few
        exact ih (by omega)
      | take =>
        simp only [verdict] at few
        exact ih (by omega)

theorem remains_sublist : (remains judge list left marked).Sublist list := by
  induction list generalizing left marked with
  | nil => simp [remains]
  | cons x list ih =>
    cases left with
    | zero => simp
    | succ left =>
      cases verdict : judge x with
      | pass =>
        simp only [remains, verdict]
        exact ih.cons_cons x
      | mark =>
        simp only [remains, verdict]
        exact ih.cons_cons x
      | take =>
        simp only [remains, verdict]
        exact ih.cons x

theorem remains_eq_self (keeps : ∀ x ∈ list, judge x ≠ .take) :
    remains judge list left marked = list := by
  induction list generalizing left marked with
  | nil => rfl
  | cons x list ih =>
    have others := fun y mem => keeps y (List.mem_cons_of_mem _ mem)
    cases left with
    | zero => simp
    | succ left =>
      cases verdict : judge x with
      | pass => simp [remains, verdict, ih others]
      | mark => simp [remains, verdict, ih others]
      | take => exact absurd verdict (keeps x List.mem_cons_self)

theorem filter_remains {keep : α → Bool} (kept : ∀ x, keep x = true → judge x ≠ .take) :
    (remains judge list left marked).filter keep = list.filter keep := by
  induction list generalizing left marked with
  | nil => rfl
  | cons x list ih =>
    cases left with
    | zero => simp
    | succ left =>
      cases verdict : judge x with
      | pass => simp only [remains, verdict, List.filter_cons, ih]
      | mark => simp only [remains, verdict, List.filter_cons, ih]
      | take =>
        have gone : keep x = false := by
          by_contra keeps
          exact kept x (by simpa using keeps) verdict
        simp only [remains, verdict, List.filter_cons, ih, gone]
        simp

theorem mem_remains_iff (once : list.Nodup) :
    x ∈ remains judge list left marked ↔
      x ∈ list ∧ ¬(x ∈ visited judge list left marked ∧ judge x = .take) := by
  induction list generalizing left marked with
  | nil => simp [remains]
  | cons y list ih =>
    rw [List.nodup_cons] at once
    cases left with
    | zero => simp
    | succ left =>
      by_cases same : x = y
      · subst same
        cases verdict : judge x with
        | pass => simp [remains, verdict]
        | mark => simp [remains, verdict]
        | take =>
          simp only [remains, visited, verdict, List.mem_cons, true_or, true_and]
          refine iff_of_false (fun mem => ?_) (by simp)
          exact once.1 (remains_sublist.subset mem)
      · cases verdict : judge y <;>
          simp [remains, visited, verdict, ih once.2, same]

theorem all_of_mem_takeWhile {list before behind : List α} {n : α} {good : α → Bool}
    (once : list.Nodup) (split : list = before ++ n :: behind) (mem : n ∈ list.takeWhile good) :
    ∀ m ∈ before ++ [n], good m = true := by
  have here : good n = true := List.mem_takeWhile_imp mem
  intro m there
  rcases List.mem_append.1 there with early | same
  · rw [split, List.takeWhile_append] at mem
    split at mem
    · next whole =>
        have all := (List.takeWhile_prefix good).eq_of_length whole
        rw [← all] at early
        exact List.mem_takeWhile_imp early
    · have again := (List.takeWhile_prefix good).subset mem
      rw [split, List.nodup_append] at once
      exact absurd rfl (once.2.2 n again n List.mem_cons_self)
  · rw [List.mem_singleton.1 same]
    exact here

theorem takeWhile_of_all {list before behind : List α} {n : α} {good : α → Bool}
    (split : list = before ++ n :: behind) (all : ∀ m ∈ before ++ [n], good m = true) :
    list.takeWhile good = before ++ n :: behind.takeWhile good := by
  rw [split, List.takeWhile_append_of_pos fun m mem => all m (List.mem_append_left _ mem),
    List.takeWhile_cons_of_pos (all n (by simp))]

end Cursor

end VendorModules.Lib
