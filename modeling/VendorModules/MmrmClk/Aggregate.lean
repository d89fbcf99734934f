import Mathlib
import VendorModules.Lib.Workers
import VendorModules.MmrmClk.Manager

namespace VendorModules.MmrmClk

open VendorModules.Lib

/-! What the aggregates of the manager stand for: the level and the sum over its clients. -/

variable {Clk : Type}

namespace ClkClientTblEntry

variable (entry : ClkClientTblEntry Clk)

def Enabled : Prop := entry.client = true ∧ entry.clkRate ≠ 0

instance : Decidable entry.Enabled := inferInstanceAs (Decidable (_ ∧ _))

def load (level : VddLevel) : Nat :=
  if entry.Enabled then (entry.currentMa entry.vddLevel level).toNat * entry.numHwBlocks.toNat
  else 0

attribute [local instance] vddLevels_neZero in
def demand : VddLevel := if entry.Enabled then entry.vddLevel else 0

/-- What the code relies on in an entry: who is not registered has no clock, who has no clock has no
rate, and who has no rate is at the lowest level. -/
structure Tidy : Prop where
  unregistered : entry.client = false → entry.clk = none
  clockless : entry.clk = none → entry.clkRate = 0
  resting : entry.clkRate = 0 → entry.vddLevel = 0

variable {entry}

theorem Tidy.client (tidy : entry.Tidy) {clk : Clk} (clocked : entry.clk = some clk) :
    entry.client = true := by
  cases registered : entry.client with
  | true => rfl
  | false => rw [tidy.unregistered registered] at clocked; cases clocked

theorem Tidy.active_iff (tidy : entry.Tidy) : entry.active = true ↔ entry.Enabled := by
  rw [active, Bool.and_eq_true, bne_iff_ne, Enabled]
  constructor
  · rintro ⟨clocked, rate⟩
    obtain ⟨clk, clocked⟩ := Option.isSome_iff_exists.mp clocked
    exact ⟨tidy.client clocked, rate⟩
  · rintro ⟨-, rate⟩
    refine ⟨?_, rate⟩
    cases clocked : entry.clk with
    | some clk => rfl
    | none => exact absurd (tidy.clockless clocked) rate

theorem Tidy.demand_eq (tidy : entry.Tidy) : entry.demand = entry.vddLevel := by
  by_cases enabled : entry.Enabled
  · exact if_pos enabled
  · rw [demand, if_neg enabled]
    have idle : entry.clkRate = 0 := by
      by_contra rate
      have active : entry.active = true := by
        rw [active, Bool.and_eq_true, bne_iff_ne]
        refine ⟨?_, rate⟩
        cases clocked : entry.clk with
        | some clk => rfl
        | none => exact absurd (tidy.clockless clocked) rate
      exact enabled (tidy.active_iff.mp active)
    exact (tidy.resting idle).symm

theorem Tidy.clocked (tidy : entry.Tidy) (enabled : entry.Enabled) : entry.clk ≠ none :=
  fun clockless => enabled.2 (tidy.clockless clockless)

theorem Tidy.throttle (tidy : entry.Tidy) (enabled : entry.Enabled) : entry.throttle.Tidy where
  unregistered := fun free => absurd (enabled.1.symm.trans free) nofun
  clockless := fun clockless => absurd clockless (tidy.clocked enabled)
  resting := fun _ => rfl

theorem load_of_enabled (enabled : entry.Enabled) (level : VddLevel) :
    entry.load level =
      (entry.currentMa entry.vddLevel level).toNat * entry.numHwBlocks.toNat := if_pos enabled

theorem load_of_idle (idle : entry.clkRate = 0) (level : VddLevel) : entry.load level = 0 :=
  if_neg fun enabled => enabled.2 idle

theorem demand_of_idle (idle : entry.clkRate = 0) : entry.demand = 0 :=
  if_neg fun enabled => enabled.2 idle

theorem current_eq_ofNat (enabled : entry.Enabled) (level : VddLevel) :
    entry.current level = BitVec.ofNat 32 (entry.load level) := by
  rw [load_of_enabled enabled, BitVec.ofNat_mul, BitVec.ofNat_toNat, BitVec.ofNat_toNat,
    BitVec.setWidth_eq, BitVec.setWidth_eq]
  rfl

theorem Tidy.counted (tidy : entry.Tidy) (level : VddLevel) :
    (if entry.active then entry.current level else 0) = BitVec.ofNat 32 (entry.load level) := by
  by_cases enabled : entry.Enabled
  · rw [if_pos (tidy.active_iff.mpr enabled), current_eq_ofNat enabled]
  · rw [if_neg (fun active => enabled (tidy.active_iff.mp active)), load, if_neg enabled]
    rfl

end ClkClientTblEntry

/-! ### Sums and levels over a table -/

section Table

def total (tbl : List (ClkClientTblEntry Clk)) (level : VddLevel) : Nat :=
  (tbl.map (·.load level)).sum

attribute [local instance] vddLevels_neZero in
def highest (tbl : List (ClkClientTblEntry Clk)) : VddLevel :=
  (tbl.map (·.demand)).foldr max 0

variable {tbl tbl' : List (ClkClientTblEntry Clk)} {uid : Nat} {entry next : ClkClientTblEntry Clk}

theorem total_perm (perm : tbl.Perm tbl') (level : VddLevel) : total tbl level = total tbl' level :=
  (perm.map _).sum_eq

theorem highest_perm (perm : tbl.Perm tbl') : highest tbl = highest tbl' :=
  (perm.map _).foldr_eq 0

theorem total_eraseIdx (here : tbl[uid]? = some entry) (level : VddLevel) :
    total tbl level = entry.load level + total (tbl.eraseIdx uid) level := by
  obtain ⟨rest, whole, -, erased⟩ := perm_of_getElem? here
  rw [total_perm whole, total_perm erased]
  rfl

theorem total_set (here : tbl[uid]? = some entry) (next : ClkClientTblEntry Clk)
    (level : VddLevel) :
    total (tbl.set uid next) level = next.load level + total (tbl.eraseIdx uid) level := by
  obtain ⟨rest, -, replaced, erased⟩ := perm_of_getElem? here
  rw [total_perm (replaced next), total_perm erased]
  rfl

theorem highest_eraseIdx (here : tbl[uid]? = some entry) :
    highest tbl = max entry.demand (highest (tbl.eraseIdx uid)) := by
  obtain ⟨rest, whole, -, erased⟩ := perm_of_getElem? here
  rw [highest_perm whole, highest_perm erased]
  rfl

theorem highest_set (here : tbl[uid]? = some entry) (next : ClkClientTblEntry Clk) :
    highest (tbl.set uid next) = max next.demand (highest (tbl.eraseIdx uid)) := by
  obtain ⟨rest, -, replaced, erased⟩ := perm_of_getElem? here
  rw [highest_perm (replaced next), highest_perm erased]
  rfl

theorem demand_le_highest (member : entry ∈ tbl) : entry.demand ≤ highest tbl := by
  induction tbl with
  | nil => cases member
  | cons first rest ih =>
    rcases List.mem_cons.mp member with rfl | member
    · exact le_max_left _ _
    · exact (ih member).trans (le_max_right _ _)

theorem highest_le {level : VddLevel} (bound : ∀ entry ∈ tbl, entry.demand ≤ level) :
    highest tbl ≤ level := by
  induction tbl with
  | nil => exact Fin.zero_le level
  | cons first rest ih =>
    exact max_le (bound first List.mem_cons_self)
      (ih fun entry member => bound entry (List.mem_cons_of_mem _ member))

theorem sum_ofNat (tbl : List (ClkClientTblEntry Clk)) (weight : ClkClientTblEntry Clk → Nat) :
    (tbl.map fun entry => BitVec.ofNat 32 (weight entry)).sum =
      BitVec.ofNat 32 (tbl.map weight).sum := by
  induction tbl with
  | nil => rfl
  | cons first rest ih =>
    simp only [List.map_cons, List.sum_cons, ih, BitVec.ofNat_add]

end Table

namespace SwClkMgr

variable (mgr : SwClkMgr Clk)

structure Accounted : Prop where
  level : mgr.aggregLevel = highest mgr.clkClientTbl
  val : mgr.aggregVal.toNat = total mgr.clkClientTbl mgr.aggregLevel

/-- The table is in order: each entry is, and of two entries for one clock source only the first is
ever registered. -/
structure Ordered : Prop where
  tidy : ∀ entry ∈ mgr.clkClientTbl, entry.Tidy
  first : ∀ (i j : Nat) (entry other : ClkClientTblEntry Clk), i < j → mgr.clkClientTbl[i]? = some entry →
    mgr.clkClientTbl[j]? = some other → entry.clkSrcId = other.clkSrcId → other.client = false

variable {mgr}

theorem Accounted.ofNat (accounted : mgr.Accounted) :
    mgr.aggregVal = BitVec.ofNat 32 (total mgr.clkClientTbl mgr.aggregLevel) := by
  rw [← accounted.val, BitVec.ofNat_toNat, BitVec.setWidth_eq]

namespace Ordered

variable (ordered : mgr.Ordered)
include ordered

theorem tidy_of_getElem? {uid : Nat} {entry : ClkClientTblEntry Clk}
    (here : mgr.clkClientTbl[uid]? = some entry) : entry.Tidy :=
  ordered.tidy entry (List.mem_of_getElem? here)

theorem calculateTotalCurrent_eq (level : VddLevel) (uid : Nat) :
    mgr.calculateTotalCurrent level uid =
      BitVec.ofNat 32 (total (mgr.clkClientTbl.eraseIdx uid) level) := by
  rw [calculateTotalCurrent, total, ← sum_ofNat]
  congr 1
  refine List.map_congr_left fun entry member => ?_
  exact (ordered.tidy entry (List.mem_of_mem_eraseIdx member)).counted level

theorem mem_others {uid : Nat} {entry : ClkClientTblEntry Clk}
    (here : mgr.clkClientTbl[uid]? = some entry) (registered : entry.client = true)
    (other : ClkClientTblEntry Clk) :
    (other ∈ mgr.clkClientTbl ∧ other.Enabled ∧ other.clkSrcId ≠ entry.clkSrcId) ↔
      other ∈ mgr.clkClientTbl.eraseIdx uid ∧ other.Enabled := by
  constructor
  · rintro ⟨member, enabled, apart⟩
    refine ⟨List.mem_eraseIdx_iff_getElem?.mpr ?_, enabled⟩
    obtain ⟨j, there⟩ := List.getElem?_of_mem member
    refine ⟨j, ?_, there⟩
    rintro rfl
    rw [here, Option.some.injEq] at there
    exact apart (congrArg _ there.symm)
  · rintro ⟨member, enabled⟩
    obtain ⟨j, differs, there⟩ := List.mem_eraseIdx_iff_getElem?.mp member
    refine ⟨List.mem_of_getElem? there, enabled, fun same => ?_⟩
    rcases Nat.lt_or_gt_of_ne differs with before | after
    · have free := ordered.first j uid other entry before there here same
      rw [registered] at free
      cases free
    · have free := ordered.first uid j entry other after here there same.symm
      rw [enabled.1] at free
      cases free

end Ordered

end SwClkMgr

end VendorModules.MmrmClk
