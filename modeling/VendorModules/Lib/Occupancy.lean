import Mathlib.Data.List.Basic
import Mathlib.Data.List.Perm.Basic

namespace VendorModules.Lib

/-! Cells that are marked while someone holds them. A holder may take several. -/

variable {κ η : Type*} (cells : η → κ → Prop)

/-- The marked cells are those of the holders, and no two holders share one. -/
structure Occupied (marked : κ → Bool) (held : List η) : Prop where
  marked_iff : ∀ c, marked c = true ↔ ∃ h ∈ held, cells h c
  apart : held.Pairwise fun h h' => ∀ c, cells h c → ¬ cells h' c

namespace Occupied

variable {cells} {marked marked' : κ → Bool} {held : List η} {h h' : η}

theorem nil (clear : ∀ c, marked c = false) : Occupied cells marked [] where
  marked_iff c := by simp [clear c]
  apart := .nil

theorem clear (occupied : Occupied cells marked []) (c : κ) : marked c = false := by
  cases set : marked c with
  | false => rfl
  | true =>
    obtain ⟨h, member, -⟩ := (occupied.marked_iff c).mp set
    cases member

theorem marked_of_mem (occupied : Occupied cells marked held) (member : h ∈ held) {c : κ}
    (mine : cells h c) : marked c = true :=
  (occupied.marked_iff c).mpr ⟨h, member, mine⟩

theorem take (occupied : Occupied cells marked held)
    (free : ∀ c, cells h c → marked c = false)
    (marks : ∀ c, marked' c = true ↔ cells h c ∨ marked c = true) :
    Occupied cells marked' (h :: held) where
  marked_iff c := by
    rw [marks, occupied.marked_iff]
    simp
  apart := by
    refine List.pairwise_cons.mpr ⟨fun h' member c mine theirs => ?_, occupied.apart⟩
    have := occupied.marked_of_mem member theirs
    rw [free c mine] at this
    cases this

variable [DecidableEq η]

theorem apart_erase (occupied : Occupied cells marked held) (member : h ∈ held) :
    (∀ h' ∈ held.erase h, ∀ c, cells h c → ¬ cells h' c) ∧
      (held.erase h).Pairwise fun h h' => ∀ c, cells h c → ¬ cells h' c := by
  have front : (h :: held.erase h).Pairwise fun h h' => ∀ c, cells h c → ¬ cells h' c :=
    ((List.perm_cons_erase member).pairwise_iff
      fun apart c theirs mine => apart c mine theirs).mp occupied.apart
  exact List.pairwise_cons.mp front

theorem release (occupied : Occupied cells marked held) (member : h ∈ held)
    (clears : ∀ c, marked' c = true ↔ marked c = true ∧ ¬ cells h c) :
    Occupied cells marked' (held.erase h) where
  marked_iff c := by
    rw [clears, occupied.marked_iff]
    constructor
    · rintro ⟨⟨h', member', theirs⟩, notMine⟩
      have other : h' ≠ h := fun same => notMine (same ▸ theirs)
      exact ⟨h', (List.mem_erase_of_ne other).mpr member', theirs⟩
    · rintro ⟨h', member', theirs⟩
      exact ⟨⟨h', List.mem_of_mem_erase member', theirs⟩,
        fun mine => (occupied.apart_erase member).1 h' member' c mine theirs⟩
  apart := (occupied.apart_erase member).2

theorem eq_of_common (occupied : Occupied cells marked held) (member : h ∈ held)
    (member' : h' ∈ held) {c : κ} (mine : cells h c) (theirs : cells h' c) : h = h' := by
  by_contra other
  have there : h' ∈ held.erase h := (List.mem_erase_of_ne (Ne.symm other)).mpr member'
  exact (occupied.apart_erase member).1 h' there c mine theirs

end Occupied

end VendorModules.Lib
