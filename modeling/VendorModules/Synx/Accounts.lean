import VendorModules.Synx.Calls
import VendorModules.Synx.Merges
import VendorModules.Synx.Signals

namespace VendorModules.Synx

open Lib

variable {s : State}

namespace State.Inv

theorem change (inv : s.Inv) {s' : State} (change : Change s (Note.Due s) s') : s'.Inv := by
  cases change with
  | stay => exact inv
  | create valid _ free made => exact inv.create valid free made
  | refuse _ free refused =>
    refine absurd refused ((inv.clean _ fun created => ?_).init_ne_none _)
    rw [created.2] at free
    cases free
  | wait id shown pending => exact inv.wait pending
  | update signals shown _ => exact inv.update signals shown
  | merge fresh nonempty other published => exact inv.merge fresh nonempty other published
  | signal here due => exact inv.signal here due
  | link here next free => exact inv.link here next free
  | fail numChild here => exact inv.fail here
  | add here last => exact inv.add here last
  | unlink idx here => exact inv.unlink idx here

end State.Inv

theorem State.Inv.initial : State.initial.Inv where
  reserved := rfl
  clean := fun _ _ => ⟨rfl, rfl, rfl, rfl, fun _ => rfl, rfl⟩
  valid := fun idx created => absurd (beq_iff_eq.mp created.2) created.1
  phased := fun _ phase => absurd rfl phase
  refs := fun idx created => absurd (beq_iff_eq.mp created.2) created.1
  plain := fun _ _ => ⟨rfl, rfl⟩
  slotted := fun _ pIdx member positive => absurd
    (by simpa [State.initial, Coredata.zero, Parents.none] using member) positive
  linked := fun _ grouped => absurd rfl grouped.ne_plain
  tally := fun _ grouped => absurd rfl grouped.ne_plain
  published := fun _ grouped => absurd rfl grouped.ne_plain
  counted := fun _ merged => nomatch merged
  settled := fun _ merged => nomatch merged
  leaf := fun _ _ => rfl
  hidden := fun _ merging => nomatch merging
  sound := fun _ running => nomatch running
  targets := List.nodup_nil

theorem State.Inv.of_reachable
    (reached : Reachable (· = State.initial) (StepOf step Timely) s) : s.Inv := by
  induction reached with
  | start initial => exact initial ▸ .initial
  | next _ taken ih =>
    obtain ⟨move, timely, moved⟩ := taken
    exact ih.change (change_of_step timely.1 timely.2 moved)

/-! ## Composites and their members -/

/-- The account of a composite: who is pending, whose notification is under way, and who has
been heard of. -/
structure State.Accounted (s : State) (pIdx : Nat) : Prop where
  /-- A member that has ended notifies once for each time it was merged, others never. -/
  once : ∀ child, s.inFlight pIdx child + (s.history.notified pIdx).count child =
    if s.Complete child then (s.history.members pIdx).count child else 0
  pending : (s.table pIdx).numChild + (s.history.notified pIdx).length =
    (s.history.members pIdx).length
  /-- No notification finds the count at zero. -/
  room : ∀ child, 0 < s.inFlight pIdx child → 0 < (s.table pIdx).numChild
  signaled : s.Complete pIdx ↔
    ∀ child ∈ s.history.members pIdx, s.Complete child ∧ s.inFlight pIdx child = 0

theorem State.Inv.accounted (inv : s.Inv) {pIdx : Nat}
    (merged : s.history.phase pIdx = .merged) : s.Accounted pIdx := by
  have tally := inv.tally pIdx (.inr merged)
  have counted := inv.counted pIdx merged
  refine
    { once := tally.balance
      pending := counted
      room := fun child under => ?_
      signaled := ?_ }
  · have := tally.length_lt under
    omega
  · rw [← tally.length_eq_iff]
    constructor
    · intro complete
      have := complete.1
      omega
    · intro equal
      have none : (s.table pIdx).numChild = 0 := by omega
      exact ⟨none, inv.settled pIdx merged none⟩

theorem accounted_of_timely (reached : Reachable (· = State.initial) (StepOf step Timely) s)
    {pIdx : Nat} (merged : s.history.phase pIdx = .merged) : s.Accounted pIdx :=
  (State.Inv.of_reachable reached).accounted merged

abbrev mergeThenUpdate : List Move :=
  [.create 1, .create 2, .merge [1] 2, .advance 0, .advance 0,
    .update 1 SYNX_STATE_SIGNALED_SUCCESS, .advance 1, .advance 1]

theorem mergeThenUpdate_accounted :
    ∃ s, Reachable (· = State.initial) (StepOf step Timely) s ∧ s.Complete 2 ∧
      s.Accounted 2 := by
  have start : Reachable (· = State.initial) (StepOf step Timely) State.initial := .start rfl
  have reached := play_reachable start
    (show (play step Timely State.initial mergeThenUpdate).isSome by decide)
  exact ⟨_, reached, by decide, accounted_of_timely reached (by decide)⟩

abbrev updateDuringMerge : List Move :=
  [.create 1, .create 2, .merge [1] 2, .advance 0, .update 1 SYNX_STATE_SIGNALED_SUCCESS,
    .advance 1, .advance 1, .advance 0]

/-- The only member has notified the composite, whose count stays at 1 for ever. -/
theorem updateDuringMerge_not_accounted :
    ∃ s, Reachable (· = State.initial) (StepOf step Promised) s ∧
      s.history.phase 2 = .merged ∧ s.Complete 1 ∧ s.history.notified 2 = [1] ∧
      (∀ activity ∈ s.running, activity.head = none ∧ activity.target = none) ∧
      (s.table 2).numChild = 1 ∧ ¬ s.Accounted 2 := by
  have start : Reachable (· = State.initial) (StepOf step Promised) State.initial := .start rfl
  have reached := play_reachable start
    (show (play step Promised State.initial updateDuringMerge).isSome by decide)
  refine ⟨_, reached, by decide, by decide, by decide, by decide, by decide,
    fun accounted => ?_⟩
  exact absurd accounted.pending (by decide)

abbrev updatedTwice : List Move :=
  [.create 1, .create 2, .merge [1] 2, .advance 0, .advance 0,
    .update 1 SYNX_STATE_SIGNALED_SUCCESS, .update 1 SYNX_STATE_SIGNALED_CANCEL,
    .advance 1, .advance 1, .advance 2, .advance 2]

theorem updatedTwice_not_accounted :
    ∃ s, Reachable (· = State.initial) (StepOf step Promised) s ∧
      s.history.phase 2 = .merged ∧ s.history.notified 2 = [1, 1] ∧ ¬ s.Accounted 2 := by
  have start : Reachable (· = State.initial) (StepOf step Promised) State.initial := .start rfl
  have reached := play_reachable start
    (show (play step Promised State.initial updatedTwice).isSome by decide)
  refine ⟨_, reached, by decide, by decide, fun accounted => ?_⟩
  exact absurd accounted.pending (by decide)

end VendorModules.Synx
