import VendorModules.MmrmClk.Runs

namespace VendorModules.MmrmClk

open VendorModules.Lib

/-! The peak threshold: which requests the sum of the currents stays below it for. -/

variable {Clk : Type} {framework : ClkFramework Clk} {mgr mgr' final : SwClkMgr Clk}

namespace SwClkMgr

def Below (mgr : SwClkMgr Clk) : Prop :=
  total mgr.clkClientTbl mgr.aggregLevel < mgr.threshold.toNat

theorem below_iff (accounted : mgr.Accounted) :
    mgr.Below ↔ mgr.aggregVal.toNat < mgr.threshold.toNat := by
  rw [Below, accounted.val]

theorem checkPeakCurrent_threshold {uid : Nat} {entry : ClkClientTblEntry Clk}
    {reqLevel : VddLevel} {clkVal numHwBlocks : BitVec 32} {calls : SetvalCalls}
    (passed : mgr.checkPeakCurrent uid entry reqLevel clkVal numHwBlocks calls = .ok mgr') :
    mgr'.threshold = mgr.threshold := by
  rcases checkPeakCurrent_cases rfl rfl rfl passed with
    ⟨-, rfl⟩ | ⟨-, rfl⟩ | ⟨-, tableId, throttled, saving, -, rfl⟩ <;> rfl

theorem Outcome.below_iff {uid : Nat} {entry : ClkClientTblEntry Clk} {reqLevel : VddLevel}
    {clkRate : BitVec 64} {numHwBlocks : BitVec 32} {calls : SetvalCalls}
    (outcome : mgr.Outcome final uid entry reqLevel clkRate numHwBlocks calls)
    (threshold : final.threshold = mgr.threshold) (positive : 0 < mgr.threshold.toNat) :
    final.Below ↔ mgr.Headroom uid entry reqLevel clkRate numHwBlocks calls := by
  rw [Below, Headroom, threshold]
  rcases outcome with ⟨sum, reason⟩ | ⟨overshoot, tableId, throttled, saving, taken, sum⟩
  · rw [sum]
    refine ⟨Or.inl, fun headroom => headroom.elim id fun saved => ?_⟩
    rcases reason with nothing | below | nobody
    · rwa [nothing]
    · exact below
    · rw [nobody] at saved
      exact saved.elim
  · rw [taken]
    dsimp only
    omega

theorem setval_threshold (uid : Nat) (clientData : ClientData) (clkVal : BitVec 64)
    (calls : SetvalCalls) :
    (mgr.setval framework uid clientData clkVal calls).1.threshold = mgr.threshold := by
  unfold SwClkMgr.setval
  split
  · rfl
  · dsimp only
    split
    · rfl
    · rfl
    · split
      · rfl
      · rename_i passed
        rw [← checkPeakCurrent_threshold passed]

section Requests

variable (framework : ClkFramework Clk) (mgr : SwClkMgr Clk)

def SetvalHeadroom (uid : Nat) (clientData : ClientData) (clkVal : BitVec 64)
    (calls : SetvalCalls) (entry : ClkClientTblEntry Clk) : Prop :=
  match plan framework entry clientData clkVal with
  | .check reqLevel clkRate _ =>
    mgr.Headroom uid entry reqLevel clkRate clientData.numHwBlocks calls
  | _ => True

def OpHeadroom : Op Clk → Prop
  | .setval uid clientData clkVal calls => ∀ entry ∈ mgr.clkClientTbl[uid]?,
      mgr.SetvalHeadroom framework uid clientData clkVal calls entry
  | _ => True

instance (uid : Nat) (clientData : ClientData) (clkVal : BitVec 64) (calls : SetvalCalls)
    (entry : ClkClientTblEntry Clk) :
    Decidable (mgr.SetvalHeadroom framework uid clientData clkVal calls entry) := by
  unfold SetvalHeadroom
  exact match plan framework entry clientData clkVal with
    | .refuse | .reserve | .check _ _ _ => inferInstance

instance (op : Op Clk) : Decidable (mgr.OpHeadroom framework op) :=
  match op with
  | .setval _ _ _ _ => inferInstanceAs (Decidable (∀ _ ∈ _, _))
  | .register _ | .deregister _ => isTrue trivial

end Requests

theorem setval_below (inv : mgr.Inv) (positive : 0 < mgr.threshold.toNat) (below : mgr.Below)
    {uid : Nat} {clientData : ClientData} {clkVal : BitVec 64} {calls : SetvalCalls}
    (careful : mgr.Careful framework (.setval uid clientData clkVal calls)) :
    (mgr.setval framework uid clientData clkVal calls).1.Below ∧
        (mgr.setval framework uid clientData clkVal calls).2 ≠ .ok () ∨
      ((mgr.setval framework uid clientData clkVal calls).1.Below ↔
        mgr.OpHeadroom framework (.setval uid clientData clkVal calls)) := by
  have inv' := inv.setval careful
  have threshold : (mgr.setval framework uid clientData clkVal calls).1.threshold =
      mgr.threshold := setval_threshold uid clientData clkVal calls
  unfold SwClkMgr.setval at inv' threshold ⊢
  cases here : mgr.clkClientTbl[uid]? with
  | none => exact Or.inl ⟨below, fun success => by cases success⟩
  | some entry =>
    have steady := careful entry here
    simp only [here] at inv' threshold ⊢
    simp only [OpHeadroom, SetvalHeadroom, here, Option.mem_some_iff, forall_eq']
    cases planned : plan framework entry clientData clkVal with
    | refuse => exact Or.inl ⟨below, fun success => by cases success⟩
    | reserve =>
      simp only [planned] at inv'
      refine Or.inr (iff_of_true ?_ trivial)
      rw [below_iff inv'.accounted]
      exact (below_iff inv.accounted).mp below
    | check reqLevel clkRate maxRateIdx =>
      cases passed : mgr.checkPeakCurrent uid entry reqLevel (clkRate.setWidth 32)
          clientData.numHwBlocks calls with
      | error errno =>
        simp only [passed]
        exact Or.inl ⟨below, fun success => by cases success⟩
      | ok mgr' =>
        simp only [SetvalSteady, planned, passed] at steady threshold ⊢
        refine Or.inr (Outcome.below_iff ?_ threshold positive)
        refine And.right (setval_cases inv here planned passed steady ?_ ?_ ?_) <;> rfl

theorem register_kept (desc : ClkClientDesc Clk) :
    (mgr.register desc).1.aggregVal = mgr.aggregVal ∧
      (mgr.register desc).1.threshold = mgr.threshold := by
  unfold SwClkMgr.register
  split
  · exact ⟨rfl, rfl⟩
  · split
    · exact ⟨rfl, rfl⟩
    · split
      · split <;> exact ⟨rfl, rfl⟩
      · exact ⟨rfl, rfl⟩

theorem deregister_kept (uid : Nat) :
    (mgr.deregister uid).1.aggregVal = mgr.aggregVal ∧
      (mgr.deregister uid).1.threshold = mgr.threshold := by
  unfold SwClkMgr.deregister
  split <;> exact ⟨rfl, rfl⟩

theorem Below.of_kept (below : mgr.Below) (inv : mgr.Inv) (inv' : mgr'.Inv)
    (kept : mgr'.aggregVal = mgr.aggregVal ∧ mgr'.threshold = mgr.threshold) : mgr'.Below := by
  rw [below_iff inv'.accounted, kept.1, kept.2]
  exact (below_iff inv.accounted).mp below

def Roomy (framework : ClkFramework Clk) (mgr : SwClkMgr Clk) (op : Op Clk) : Prop :=
  mgr.Careful framework op ∧ mgr.OpHeadroom framework op

instance (op : Op Clk) : Decidable (mgr.Roomy framework op) :=
  inferInstanceAs (Decidable (_ ∧ _))

structure Limited (mgr : SwClkMgr Clk) : Prop where
  inv : mgr.Inv
  positive : 0 < mgr.threshold.toNat
  below : mgr.Below

theorem Limited.of_start (start : mgr.Start) (positive : 0 < mgr.threshold.toNat) :
    mgr.Limited where
  inv := .of_start start
  positive := positive
  below := by
    rw [below_iff (Inv.of_start start).accounted, start.aggregVal]
    exact positive

theorem Limited.step (limited : mgr.Limited)
    (taken : StepOf (step framework) (Roomy framework) mgr mgr') : mgr'.Limited := by
  obtain ⟨op, ⟨careful, room⟩, taken⟩ := taken
  have inv' : mgr'.Inv := limited.inv.step ⟨op, careful, taken⟩
  cases op with
  | register desc =>
    cases taken
    refine ⟨inv', ?_, limited.below.of_kept limited.inv inv' (register_kept desc)⟩
    rw [(register_kept desc).2]
    exact limited.positive
  | deregister uid =>
    cases taken
    refine ⟨inv', ?_, limited.below.of_kept limited.inv inv' (deregister_kept uid)⟩
    rw [(deregister_kept uid).2]
    exact limited.positive
  | setval uid clientData clkVal calls =>
    cases taken
    refine ⟨inv', ?_, ?_⟩
    · rw [setval_threshold]
      exact limited.positive
    · rcases setval_below limited.inv limited.positive limited.below careful with
        ⟨below, -⟩ | granted
      · exact below
      · exact granted.mpr room

/-- In every run of careful operations with headroom the sum stays below the threshold, and a
request that is granted next keeps it there exactly if it has headroom too. -/
theorem below_iff_headroom
    (reached : Reachable (fun mgr : SwClkMgr Clk => mgr.Start ∧ 0 < mgr.threshold.toNat)
      (StepOf (step framework) (Roomy framework)) mgr) :
    mgr.Below ∧ ∀ uid clientData clkVal calls,
      mgr.Careful framework (.setval uid clientData clkVal calls) →
      (mgr.setval framework uid clientData clkVal calls).2 = .ok () →
      ((mgr.setval framework uid clientData clkVal calls).1.Below ↔
        mgr.OpHeadroom framework (.setval uid clientData clkVal calls)) := by
  have limited : mgr.Limited := reached.invariant
    (fun _ start => Limited.of_start start.1 start.2) fun _ _ limited taken => limited.step taken
  refine ⟨limited.below, fun uid clientData clkVal calls careful success => ?_⟩
  rcases setval_below limited.inv limited.positive limited.below careful with ⟨-, failed⟩ | granted
  · exact absurd success failed
  · exact granted

theorem sampleOps_roomy :
    (play (step sampleFramework) (Roomy sampleFramework) (sampleStart 1000) sampleOps).isSome := by
  decide +kernel

theorem sampleOps_below :
    ((play (step sampleFramework) (Roomy sampleFramework) (sampleStart 1000) sampleOps).get
      sampleOps_roomy).Below :=
  (below_iff_headroom (play_reachable (.start ⟨sampleStart_start 1000, by decide⟩)
    sampleOps_roomy)).1

theorem sampleRegister_taken :
    (play (step sampleFramework) (fun _ _ => True) (sampleStart 5)
      [.register (sampleDesc 1 .high)]).isSome := by
  decide +kernel

/-- A client with nobody to be throttled for it is granted a current beyond the threshold. -/
theorem sampleSet_beyond : ∃ mgr,
    Reachable (fun mgr : SwClkMgr Unit => mgr.Start ∧ 0 < mgr.threshold.toNat)
      (StepOf (step sampleFramework) fun _ _ => True) mgr ∧
      (mgr.setval sampleFramework 0 ⟨1, false, .sw, 0, 0⟩ 3 sampleCalls).2 = .ok () ∧
      ¬ (mgr.setval sampleFramework 0 ⟨1, false, .sw, 0, 0⟩ 3 sampleCalls).1.Below :=
  ⟨_, play_reachable (.start ⟨sampleStart_start 5, by decide⟩) sampleRegister_taken,
    by decide +kernel, by unfold Below; decide +kernel⟩

end SwClkMgr

end VendorModules.MmrmClk
