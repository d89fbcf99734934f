import Mathlib.Logic.Basic

namespace VendorModules.Lib

/-- A reference counter in memory that is freed when the last reference is put. -/
structure Kref where
  refs : Nat := 1
  /-- How often the memory has been freed. -/
  freed : Nat := 0
  deriving DecidableEq

namespace Kref

variable {r : Kref} {n : Nat}

def get (r : Kref) : Kref := { r with refs := r.refs + 1 }

def put (r : Kref) : Kref :=
  if r.refs = 1 then { refs := 0, freed := r.freed + 1 } else { r with refs := r.refs - 1 }

def free (r : Kref) : Kref := { r with freed := r.freed + 1 }

/-- The counter counts `n` parties, and the memory has been freed once when there are none. -/
def Held (r : Kref) (n : Nat) : Prop := if n = 0 then r.freed = 1 else r.refs = n ∧ r.freed = 0

theorem held_init : ({} : Kref).Held 1 := ⟨rfl, rfl⟩

theorem Held.freed_eq (held : r.Held n) : r.freed = if n = 0 then 1 else 0 := by
  unfold Held at held
  split at held
  · rename_i none
    rw [if_pos none, held]
  · rename_i some
    rw [if_neg some, held.2]

theorem Held.live (held : r.Held n) (some : 0 < n) : r.refs = n ∧ r.freed = 0 := by
  unfold Held at held
  rwa [if_neg (by omega)] at held

theorem held_of_live (refs : r.refs = n) (live : r.freed = 0) (some : 0 < n) : r.Held n := by
  unfold Held
  rw [if_neg (by omega)]
  exact ⟨refs, live⟩

theorem Held.get (held : r.Held n) (some : 0 < n) : r.get.Held (n + 1) := by
  obtain ⟨refs, live⟩ := held.live some
  exact held_of_live (congrArg (· + 1) refs) live (Nat.succ_pos n)

theorem Held.put (held : r.Held (n + 1)) : r.put.Held n := by
  obtain ⟨refs, live⟩ := held.live (Nat.succ_pos n)
  unfold Kref.put
  split
  · rename_i last
    have none : n = 0 := by omega
    subst none
    show r.freed + 1 = 1
    rw [live]
  · refine held_of_live ?_ live (by omega)
    show r.refs - 1 = n
    omega

theorem Held.free (held : r.Held 1) : r.free.Held 0 := by
  show r.freed + 1 = 1
  rw [(held.live Nat.one_pos).2]

/-- What one party does to the counter, and how many references it has before and after. To get one
it has to find the memory `listed`. -/
inductive Adjusts (listed : Prop) (r : Kref) : Kref → Nat → Nat → Prop
  | same {n : Nat} : Adjusts listed r r n n
  | get {n : Nat} (found : listed) : Adjusts listed r r.get n (n + 1)
  | put {n : Nat} : Adjusts listed r r.put (n + 1) n

theorem Adjusts.own {listed : Prop} {r' : Kref} {own own' : Nat}
    (adjusts : Adjusts listed r r' own own') :
    own' = own ∨ (listed ∧ own' = own + 1) ∨ own = own' + 1 := by
  cases adjusts with
  | same => exact .inl rfl
  | get found => exact .inr (.inl ⟨found, rfl⟩)
  | put => exact .inr (.inr rfl)

theorem Held.adjust {listed : Prop} {r' : Kref} {n' own own' : Nat} (held : r.Held n)
    (adjusts : Adjusts listed r r' own own') (total : n' + own = n + own')
    (some : listed → 0 < n) : r'.Held n' := by
  cases adjusts with
  | same =>
    have equal : n' = n := by omega
    exact equal ▸ held
  | get found =>
    have equal : n' = n + 1 := by omega
    exact equal ▸ held.get (some found)
  | put =>
    have equal : n = n' + 1 := by omega
    exact (equal ▸ held).put

end Kref

end VendorModules.Lib
