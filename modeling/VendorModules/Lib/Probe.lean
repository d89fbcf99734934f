import Mathlib.Data.Nat.ModEq
import Mathlib.Order.Basic

namespace VendorModules.Lib

/-! Linear probing: the slots of a table in the order in which they are tried from a place on. -/

variable {m : Nat} {p q : Nat → Bool} {i j k : Nat}

/-- The first of `n` slots from `i` on that passes. -/
def firstProbe (p : Nat → Bool) (m : Nat) : Nat → Nat → Option Nat
  | 0, _ => none
  | n + 1, i => if p i then some i else firstProbe p m n ((i + 1) % m)

theorem firstProbe_zero (p : Nat → Bool) (m i : Nat) : firstProbe p m 0 i = none := rfl

theorem firstProbe_succ (p : Nat → Bool) (m n i : Nat) :
    firstProbe p m (n + 1) i =
      if p i then some i else firstProbe p m n ((i + 1) % m) := rfl

theorem firstProbe_congr (agree : ∀ i, p i = q i) (n i : Nat) :
    firstProbe p m n i = firstProbe q m n i := by
  rw [funext agree]

theorem firstProbe_add (p : Nat → Bool) (n n' : Nat) (inside : i < m) :
    firstProbe p m (n + n') i =
      (firstProbe p m n i).or (firstProbe p m n' ((i + n) % m)) := by
  induction n generalizing i with
  | zero => simp [firstProbe_zero, Nat.mod_eq_of_lt inside]
  | succ n ih =>
    have pos : 0 < m := Nat.zero_lt_of_lt inside
    rw [Nat.succ_add, firstProbe_succ, firstProbe_succ, ih (Nat.mod_lt _ pos)]
    split
    · rfl
    · rw [Nat.mod_add_mod, Nat.add_assoc, Nat.add_comm 1 n]

def probeDistance (m i j : Nat) : Nat := (j + (m - i)) % m

theorem probeDistance_lt (pos : 0 < m) (i j : Nat) : probeDistance m i j < m :=
  Nat.mod_lt _ pos

theorem add_probeDistance (inside : i < m) (inside' : j < m) :
    (i + probeDistance m i j) % m = j := by
  rw [probeDistance, Nat.add_mod_mod]
  have : i + (j + (m - i)) = j + m := by omega
  rw [this, Nat.add_mod_right, Nat.mod_eq_of_lt inside']

theorem probeDistance_add (inside : i < m) (near : k < m) :
    probeDistance m i ((i + k) % m) = k := by
  rw [probeDistance, Nat.mod_add_mod]
  have : i + k + (m - i) = k + m := by omega
  rw [this, Nat.add_mod_right, Nat.mod_eq_of_lt near]

theorem probeDistance_inj (inside : i < m) (inside' : j < m) (inside'' : k < m)
    (same : probeDistance m i j = probeDistance m i k) : j = k := by
  rw [← add_probeDistance inside inside', ← add_probeDistance inside inside'', same]

theorem firstProbe_eq_none_iff (p : Nat → Bool) (n : Nat) (inside : i < m) :
    firstProbe p m n i = none ↔ ∀ k < n, p ((i + k) % m) = false := by
  induction n generalizing i with
  | zero => simp [firstProbe_zero]
  | succ n ih =>
    have pos : 0 < m := Nat.zero_lt_of_lt inside
    have next (k : Nat) : ((i + 1) % m + k) % m = (i + (k + 1)) % m := by
      rw [Nat.mod_add_mod, Nat.add_assoc, Nat.add_comm 1 k]
    rw [firstProbe_succ]
    split
    · rename_i here
      constructor
      · nofun
      · intro none_passes
        have first := none_passes 0 (Nat.succ_pos n)
        rw [Nat.add_zero, Nat.mod_eq_of_lt inside] at first
        exact absurd here (by simp [first])
    · rename_i off
      rw [ih (Nat.mod_lt _ pos)]
      constructor
      · intro rest k near
        cases k with
        | zero => simpa [Nat.mod_eq_of_lt inside] using off
        | succ k =>
          rw [← next k]
          exact rest k (Nat.lt_of_succ_lt_succ near)
      · intro none_passes k near
        rw [next k]
        exact none_passes (k + 1) (Nat.succ_lt_succ near)

theorem firstProbe_eq_some_iff (p : Nat → Bool) (n : Nat) (inside : i < m) :
    firstProbe p m n i = some j ↔
      ∃ k < n, j = (i + k) % m ∧ p j = true ∧ ∀ l < k, p ((i + l) % m) = false := by
  induction n generalizing i with
  | zero => simp [firstProbe_zero]
  | succ n ih =>
    have pos : 0 < m := Nat.zero_lt_of_lt inside
    have next (k : Nat) : ((i + 1) % m + k) % m = (i + (k + 1)) % m := by
      rw [Nat.mod_add_mod, Nat.add_assoc, Nat.add_comm 1 k]
    have first : (i + 0) % m = i := Nat.mod_eq_of_lt inside
    rw [firstProbe_succ]
    split
    · rename_i here
      constructor
      · rintro ⟨⟩
        exact ⟨0, Nat.succ_pos n, first.symm, here, fun l near => absurd near (Nat.not_lt_zero l)⟩
      · rintro ⟨k, near, rfl, -, none_before⟩
        cases k with
        | zero => rw [first]
        | succ k =>
          have := none_before 0 (Nat.succ_pos k)
          rw [first, here] at this
          cases this
    · rename_i off
      rw [ih (Nat.mod_lt _ pos)]
      constructor
      · rintro ⟨k, near, rfl, passes, none_before⟩
        refine ⟨k + 1, Nat.succ_lt_succ near, next k, passes, fun l earlier => ?_⟩
        cases l with
        | zero =>
          rw [first]
          simpa using off
        | succ l =>
          rw [← next l]
          exact none_before l (Nat.lt_of_succ_lt_succ earlier)
      · rintro ⟨k, near, rfl, passes, none_before⟩
        cases k with
        | zero =>
          rw [first] at passes
          exact absurd passes off
        | succ k =>
          refine ⟨k, Nat.lt_of_succ_lt_succ near, (next k).symm, passes, fun l earlier => ?_⟩
          rw [next l]
          exact none_before (l + 1) (Nat.succ_lt_succ earlier)

theorem firstProbe_full_eq_none_iff (p : Nat → Bool) (inside : i < m) :
    firstProbe p m m i = none ↔ ∀ j < m, p j = false := by
  rw [firstProbe_eq_none_iff p m inside]
  constructor
  · intro none_passes j inside'
    have here := none_passes (probeDistance m i j)
      (probeDistance_lt (Nat.zero_lt_of_lt inside) i j)
    rwa [add_probeDistance inside inside'] at here
  · intro none_passes k _
    exact none_passes _ (Nat.mod_lt _ (Nat.zero_lt_of_lt inside))

theorem firstProbe_full_eq_some_iff (p : Nat → Bool) (inside : i < m) :
    firstProbe p m m i = some j ↔
      j < m ∧ p j = true ∧
        ∀ l < m, probeDistance m i l < probeDistance m i j → p l = false := by
  have pos : 0 < m := Nat.zero_lt_of_lt inside
  rw [firstProbe_eq_some_iff p m inside]
  constructor
  · rintro ⟨k, near, rfl, passes, none_before⟩
    refine ⟨Nat.mod_lt _ pos, passes, fun l inside' earlier => ?_⟩
    rw [probeDistance_add inside near] at earlier
    have before := none_before _ earlier
    rwa [add_probeDistance inside inside'] at before
  · rintro ⟨inside', passes, none_before⟩
    refine ⟨probeDistance m i j, probeDistance_lt pos i j, (add_probeDistance inside inside').symm,
      passes, fun l earlier => ?_⟩
    have near := Nat.lt_trans earlier (probeDistance_lt pos i j)
    apply none_before _ (Nat.mod_lt _ pos)
    rwa [probeDistance_add inside near]

end VendorModules.Lib
