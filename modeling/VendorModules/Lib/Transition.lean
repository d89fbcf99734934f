import Mathlib.Logic.Basic

namespace VendorModules.Lib

variable {σ τ : Type*}

/-- The states that runs of a transition relation get to. -/
inductive Reachable (start : σ → Prop) (step : σ → σ → Prop) : σ → Prop
  | start {s : σ} (initial : start s) : Reachable start step s
  | next {s s' : σ} (reached : Reachable start step s) (taken : step s s') :
      Reachable start step s'

namespace Reachable

variable {start : σ → Prop} {step : σ → σ → Prop}

theorem invariant {inv : σ → Prop} (base : ∀ s, start s → inv s)
    (keep : ∀ s s', inv s → step s s' → inv s') {s : σ}
    (reached : Reachable start step s) : inv s := by
  induction reached with
  | start initial => exact base _ initial
  | next _ taken ih => exact keep _ _ ih taken

theorem mono {step' : σ → σ → Prop} (wider : ∀ s s', step s s' → step' s s') {s : σ}
    (reached : Reachable start step s) : Reachable start step' s := by
  induction reached with
  | start initial => exact .start initial
  | next _ taken ih => exact .next ih (wider _ _ taken)

end Reachable

section Moves

variable {μ : Type*} (step : σ → μ → Option σ) (allowed : σ → μ → Prop)

/-- The steps that the allowed moves make. -/
def StepOf (s s' : σ) : Prop := ∃ move, allowed s move ∧ step s move = some s'

variable [∀ s move, Decidable (allowed s move)]

/-- Takes the moves one after the other, as long as each is allowed. -/
def play (s : σ) : List μ → Option σ
  | [] => some s
  | move :: moves => if allowed s move then (step s move).bind (play · moves) else none

variable {step allowed}

theorem play_reachable {start : σ → Prop} {moves : List μ} {s : σ}
    (reached : Reachable start (StepOf step allowed) s)
    (taken : (play step allowed s moves).isSome) :
    Reachable start (StepOf step allowed) ((play step allowed s moves).get taken) := by
  induction moves generalizing s with
  | nil => exact reached
  | cons move moves ih =>
    by_cases may : allowed s move
    · cases stepped : step s move with
      | none => simp [play, may, stepped] at taken
      | some next =>
        have rest : play step allowed s (move :: moves) = play step allowed next moves := by
          simp [play, may, stepped]
        simp only [rest] at taken ⊢
        exact ih (reached.next ⟨move, may, stepped⟩) taken
    · simp [play, may] at taken

end Moves


variable {σ α β : Type}

/-- Whatever the program returns, it ends in a state with `inv` when it starts in
one. -/
def Keeps (inv : σ → Prop) (program : StateM σ α) : Prop :=
  ∀ s, inv s → inv (program s).2

namespace Keeps

variable {inv : σ → Prop} {program other : StateM σ α}

theorem pure (a : α) : Keeps inv (Pure.pure a : StateM σ α) :=
  fun _ holds => holds

theorem bind {next : α → StateM σ β} (first : Keeps inv program)
    (rest : ∀ a, Keeps inv (next a)) : Keeps inv (program >>= next) :=
  fun s holds => rest (program s).1 (program s).2 (first s holds)

theorem bind_returned (returned : α → Prop) {next : α → StateM σ β}
    (first : Keeps inv program) (returns : ∀ s, returned (program s).1)
    (rest : ∀ a, returned a → Keeps inv (next a)) :
    Keeps inv (program >>= next) :=
  fun s holds => rest (program s).1 (returns s) (program s).2 (first s holds)

theorem get_bind {next : σ → StateM σ β}
    (rest : ∀ s, inv s → inv (next s s).2) :
    Keeps inv (MonadState.get >>= next) :=
  rest

theorem get : Keeps inv (MonadState.get : StateM σ σ) :=
  fun _ holds => holds

theorem ite {c : Prop} [Decidable c] (first : Keeps inv program)
    (second : Keeps inv other) : Keeps inv (if c then program else other) := by
  split
  · exact first
  · exact second

end Keeps

end VendorModules.Lib
