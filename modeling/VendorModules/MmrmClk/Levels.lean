import VendorModules.MmrmClk.Aggregate

namespace VendorModules.MmrmClk

/-! The level that `mmrm_sw_check_req_level` finds. -/

variable {Clk : Type}

namespace ClkClientTblEntry

def lookedAt (clkSrcId : BitVec 32) (tbl : List (ClkClientTblEntry Clk)) :
    List (ClkClientTblEntry Clk) :=
  tbl.filter fun entry => entry.active && decide (entry.clkSrcId ≠ clkSrcId)

def above (clkSrcId : BitVec 32) (reqLevel : VddLevel) (tbl : List (ClkClientTblEntry Clk)) :
    List (ClkClientTblEntry Clk) :=
  (lookedAt clkSrcId tbl).filter fun entry => reqLevel < entry.vddLevel

variable {clkSrcId : BitVec 32} {aggregLevel reqLevel : VddLevel}
  {tbl : List (ClkClientTblEntry Clk)}

/-- The level of `next_max_entry`, or the one asked for. -/
def nextLevel (reqLevel : VddLevel) : Option VddLevel → VddLevel
  | none => reqLevel
  | some nextMax => if reqLevel < nextMax then nextMax else reqLevel

theorem lookedAt_cons_skipped {entry : ClkClientTblEntry Clk}
    (skipped : entry.active = false ∨ entry.clkSrcId = clkSrcId) :
    lookedAt clkSrcId (entry :: tbl) = lookedAt clkSrcId tbl := by
  refine List.filter_cons_of_neg ?_
  rcases skipped with idle | same
  · simp [idle]
  · simp [same]

theorem lookedAt_cons {entry : ClkClientTblEntry Clk}
    (met : ¬(entry.active = false ∨ entry.clkSrcId = clkSrcId)) :
    lookedAt clkSrcId (entry :: tbl) = entry :: lookedAt clkSrcId tbl := by
  refine List.filter_cons_of_pos ?_
  rw [not_or] at met
  simp [met.1, met.2]

theorem scanReqLevel_eq (bound : ∀ entry ∈ lookedAt clkSrcId tbl, entry.vddLevel ≤ aggregLevel)
    (nextMax : Option VddLevel) :
    scanReqLevel clkSrcId aggregLevel reqLevel tbl nextMax =
      if ∃ entry ∈ lookedAt clkSrcId tbl, entry.vddLevel = aggregLevel then aggregLevel
      else nextLevel reqLevel
        (((above clkSrcId reqLevel tbl).getLast?.map (·.vddLevel)).or nextMax) := by
  induction tbl generalizing nextMax with
  | nil => cases nextMax <;> rfl
  | cons entry rest ih =>
    by_cases skipped : entry.active = false ∨ entry.clkSrcId = clkSrcId
    · rw [scanReqLevel, if_pos skipped, above]
      simp only [lookedAt_cons_skipped skipped] at bound ⊢
      exact ih bound nextMax
    · rw [scanReqLevel, if_neg skipped, above]
      simp only [lookedAt_cons skipped] at bound ⊢
      have rest_bound := fun other member => bound other (List.mem_cons_of_mem _ member)
      by_cases reached : entry.vddLevel = aggregLevel
      · rw [if_pos reached, if_pos ⟨entry, List.mem_cons_self, reached⟩]
      · have below : entry.vddLevel < aggregLevel :=
          lt_of_le_of_ne (bound entry List.mem_cons_self) reached
        have same : (∃ other ∈ entry :: lookedAt clkSrcId rest, other.vddLevel = aggregLevel) ↔
            ∃ other ∈ lookedAt clkSrcId rest, other.vddLevel = aggregLevel := by
          rw [List.exists_mem_cons_iff, or_iff_right reached]
        rw [if_neg reached, ih rest_bound]
        simp only [same]
        split
        · rfl
        · by_cases more : reqLevel < entry.vddLevel
          · rw [List.filter_cons_of_pos (by simp [more]), if_pos ⟨below, more⟩,
              List.getLast?_cons]
            change nextLevel reqLevel
              (((above clkSrcId reqLevel rest).getLast?.map (·.vddLevel)).or _) =
                nextLevel reqLevel
                  ((some ((above clkSrcId reqLevel rest).getLast?.getD entry)).map _ |>.or _)
            cases (above clkSrcId reqLevel rest).getLast? <;> rfl
          · rw [List.filter_cons_of_neg (by simp [more]), if_neg fun both => more both.2]
            rfl

end ClkClientTblEntry

namespace SwClkMgr

open ClkClientTblEntry

variable {mgr : SwClkMgr Clk} {uid : Nat} {entry : ClkClientTblEntry Clk} {reqLevel : VddLevel}

def LastNeedsMost (mgr : SwClkMgr Clk) (clkSrcId : BitVec 32) (reqLevel : VddLevel) : Prop :=
  reqLevel < mgr.aggregLevel →
    (∃ other ∈ lookedAt clkSrcId mgr.clkClientTbl, other.vddLevel = mgr.aggregLevel) ∨
      ∀ last ∈ (above clkSrcId reqLevel mgr.clkClientTbl).getLast?,
        ∀ other ∈ lookedAt clkSrcId mgr.clkClientTbl, other.vddLevel ≤ last.vddLevel

instance (clkSrcId : BitVec 32) : Decidable (mgr.LastNeedsMost clkSrcId reqLevel) :=
  inferInstanceAs (Decidable (_ → _ ∨ _))

theorem Ordered.mem_lookedAt (ordered : mgr.Ordered) (here : mgr.clkClientTbl[uid]? = some entry)
    (registered : entry.client = true) (other : ClkClientTblEntry Clk) :
    other ∈ lookedAt entry.clkSrcId mgr.clkClientTbl ↔
      other ∈ mgr.clkClientTbl.eraseIdx uid ∧ other.Enabled := by
  rw [← ordered.mem_others here registered, lookedAt, List.mem_filter, Bool.and_eq_true,
    decide_eq_true_iff]
  exact and_congr_right fun member => and_congr_left' (ordered.tidy other member).active_iff

theorem Ordered.highest_others_le (ordered : mgr.Ordered)
    (here : mgr.clkClientTbl[uid]? = some entry) (registered : entry.client = true)
    {level : VddLevel}
    (bound : ∀ other ∈ lookedAt entry.clkSrcId mgr.clkClientTbl, other.vddLevel ≤ level) :
    highest (mgr.clkClientTbl.eraseIdx uid) ≤ level := by
  refine highest_le fun other member => ?_
  by_cases enabled : other.Enabled
  · rw [demand, if_pos enabled]
    exact bound other ((ordered.mem_lookedAt here registered other).mpr ⟨member, enabled⟩)
  · rw [demand, if_neg enabled]
    exact Fin.zero_le level

theorem Ordered.le_highest_others (ordered : mgr.Ordered)
    (here : mgr.clkClientTbl[uid]? = some entry) (registered : entry.client = true)
    {other : ClkClientTblEntry Clk}
    (looked : other ∈ lookedAt entry.clkSrcId mgr.clkClientTbl) :
    other.vddLevel ≤ highest (mgr.clkClientTbl.eraseIdx uid) := by
  obtain ⟨member, -⟩ := (ordered.mem_lookedAt here registered other).mp looked
  have tidy := ordered.tidy other (List.mem_of_mem_eraseIdx member)
  rw [← tidy.demand_eq]
  exact demand_le_highest member

theorem Ordered.checkReqLevel_eq (ordered : mgr.Ordered)
    (level : mgr.aggregLevel = highest mgr.clkClientTbl)
    (here : mgr.clkClientTbl[uid]? = some entry) (registered : entry.client = true)
    (most : mgr.LastNeedsMost entry.clkSrcId reqLevel) :
    mgr.checkReqLevel entry.clkSrcId reqLevel =
      max reqLevel (highest (mgr.clkClientTbl.eraseIdx uid)) := by
  have others : highest (mgr.clkClientTbl.eraseIdx uid) ≤ mgr.aggregLevel := by
    rw [level, highest_eraseIdx here]
    exact le_max_right _ _
  have bound : ∀ other ∈ lookedAt entry.clkSrcId mgr.clkClientTbl,
      other.vddLevel ≤ mgr.aggregLevel := fun other looked =>
    (ordered.le_highest_others here registered looked).trans others
  by_cases lower : reqLevel < mgr.aggregLevel
  · rw [checkReqLevel, if_pos lower, scanReqLevel_eq bound, Option.or_none]
    split
    · rename_i reached
      obtain ⟨other, looked, reached⟩ := reached
      have attained := ordered.le_highest_others here registered looked
      rw [reached] at attained
      rw [le_antisymm others attained, max_eq_right lower.le]
    · rename_i notReached
      have most := (most lower).resolve_left notReached
      cases decided : (above entry.clkSrcId reqLevel mgr.clkClientTbl).getLast? with
      | none =>
        have nobody : above entry.clkSrcId reqLevel mgr.clkClientTbl = [] :=
          List.getLast?_eq_none_iff.mp decided
        have low := ordered.highest_others_le here registered fun other looked => by
          have passed := (List.filter_eq_nil_iff.mp nobody) other looked
          exact not_lt.mp fun more => passed (decide_eq_true more)
        rw [max_eq_left low]
        rfl
      | some last =>
        obtain ⟨looked, more⟩ := List.mem_filter.mp (List.mem_of_getLast? decided)
        have more := of_decide_eq_true more
        have attained := ordered.le_highest_others here registered looked
        have low := ordered.highest_others_le here registered (most last decided)
        rw [le_antisymm low attained, max_eq_right more.le]
        exact if_pos more
  · rw [checkReqLevel, if_neg lower, max_eq_left (others.trans (not_lt.mp lower))]

end SwClkMgr

end VendorModules.MmrmClk
