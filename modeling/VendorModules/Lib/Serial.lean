import Mathlib.Data.List.TakeWhile
import Mathlib.Data.BitVec

namespace VendorModules.Lib

/-! Serial numbers: fixed-width counters that wrap around, compared by the half of the
range that their difference falls in. -/

namespace Serial

variable {w : Nat} {base a b c : BitVec w}

/-- `a` is not before `b`. -/
def NotBefore (a b : BitVec w) : Prop := (a - b).toNat ≤ 2 ^ (w - 1)

instance : Decidable (NotBefore a b) := inferInstanceAs (Decidable (_ ≤ _))

/-- `a` lies in the half of the range that begins at `base`. -/
def Within (base a : BitVec w) : Prop := (a - base).toNat < 2 ^ (w - 1)

instance : Decidable (Within base a) := inferInstanceAs (Decidable (_ < _))

/-- How far `a` is past `base`. -/
def past (base a : BitVec w) : Nat := (a - base).toNat

theorem sub_eq_sub_sub (base a b : BitVec w) : a - b = (a - base) - (b - base) := by
  simp only [BitVec.sub_eq_add_neg, BitVec.neg_add, BitVec.neg_neg]
  rw [BitVec.add_assoc, BitVec.add_comm (-b) base, ← BitVec.add_assoc (-base),
    BitVec.add_left_neg, BitVec.zero_add]

theorem notBefore_iff (aIn : Within base a) (bIn : Within base b) :
    NotBefore a b ↔ past base b ≤ past base a := by
  unfold NotBefore past
  unfold Within at aIn bIn
  rw [sub_eq_sub_sub base a b, BitVec.toNat_sub]
  generalize (a - base).toNat = x at *
  generalize (b - base).toNat = y at *
  have range : 2 ^ w ≤ 2 * 2 ^ (w - 1) := by
    rw [← Nat.pow_succ']
    exact Nat.pow_le_pow_right (by decide) (by omega)
  have half : 0 < w → 2 * 2 ^ (w - 1) = 2 ^ w := by
    intro positive
    rw [← Nat.pow_succ', Nat.succ_eq_add_one, Nat.sub_add_cancel positive]
  rcases Nat.eq_zero_or_pos w with rfl | positive
  · simp only [Nat.pow_zero, Nat.mod_one, Nat.zero_sub] at aIn bIn ⊢
    omega
  · have total := half positive
    by_cases order : y ≤ x
    · have exact_sub : 2 ^ w - y + x = (x - y) + 2 ^ w := by omega
      rw [exact_sub, Nat.add_mod_right, Nat.mod_eq_of_lt (by omega)]
      omega
    · rw [Nat.mod_eq_of_lt (by omega)]
      omega

end Serial

section Sorted

variable {α : Type*} {key : α → Nat} {list : List α} {new x : α}

theorem takeWhile_congr_mem {p q : α → Bool} (same : ∀ x ∈ list, p x = q x) :
    list.takeWhile p = list.takeWhile q := by
  induction list with
  | nil => rfl
  | cons head rest ih =>
    have first := same head List.mem_cons_self
    have others := ih fun x mem => same x (List.mem_cons_of_mem _ mem)
    rw [List.takeWhile_cons, List.takeWhile_cons, first, others]

theorem dropWhile_congr_mem {p q : α → Bool} (same : ∀ x ∈ list, p x = q x) :
    list.dropWhile p = list.dropWhile q := by
  induction list with
  | nil => rfl
  | cons head rest ih =>
    have first := same head List.mem_cons_self
    have others := ih fun x mem => same x (List.mem_cons_of_mem _ mem)
    rw [List.dropWhile_cons, List.dropWhile_cons, first, others]

theorem lt_of_mem_dropWhile {bound : Nat} (sorted : list.Pairwise (key · ≤ key ·))
    (mem : x ∈ list.dropWhile (key · ≤ bound)) : bound < key x := by
  induction list with
  | nil => simp at mem
  | cons head rest ih =>
    rw [List.pairwise_cons] at sorted
    by_cases early : key head ≤ bound
    · rw [List.dropWhile_cons_of_pos (by simpa using early)] at mem
      exact ih sorted.2 mem
    · rw [List.dropWhile_cons_of_neg (by simpa using early)] at mem
      rcases List.mem_cons.1 mem with rfl | later
      · omega
      · have := sorted.1 x later
        omega

theorem le_of_mem_takeWhile {bound : Nat} (mem : x ∈ list.takeWhile (key · ≤ bound)) :
    key x ≤ bound := by
  simpa using List.mem_takeWhile_imp mem

theorem sorted_insert (sorted : list.Pairwise (key · ≤ key ·)) :
    (list.takeWhile (key · ≤ key new) ++
      new :: list.dropWhile (key · ≤ key new)).Pairwise (key · ≤ key ·) := by
  have whole := sorted
  rw [← List.takeWhile_append_dropWhile (p := fun x => decide (key x ≤ key new)) (l := list),
    List.pairwise_append] at whole
  obtain ⟨before, after, across⟩ := whole
  rw [List.pairwise_append, List.pairwise_cons]
  refine ⟨before, ⟨fun y mem => (lt_of_mem_dropWhile sorted mem).le, after⟩, ?_⟩
  intro y early z mem
  rcases List.mem_cons.1 mem with rfl | late
  · exact le_of_mem_takeWhile early
  · exact across y early z late

end Sorted

end VendorModules.Lib
