import VendorModules.Fltrt.Parse

namespace VendorModules.Fltrt

open VendorModules.Lib
open Memory Cell

/-! A description that is written and read back. -/

inductive Writer
  | fromEq
  | fromEq55 (extHdr : Bool)
  deriving DecidableEq, Repr

namespace Writer

variable (writer : Writer)

def extHdr : Writer → Bool
  | .fromEq => false
  | .fromEq55 extHdr => extHdr

def hdrSz : Nat := 8 + writer.extHdr.toNat * 2

def write (hw : HwType) (atrb : RuleEq) (mem : Memory) (buf : Nat) : Option (Memory × Nat) :=
  match writer with
  | .fromEq => atrb.generateHwRuleBdyFromEq hw mem buf
  | .fromEq55 extHdr => atrb.generateHwRuleBdyFromEq55 hw mem buf extHdr

/-- The rule at `addr` is read back as it was written, with the size it has. -/
def RoundTrips (hw : HwType) (atrb : RuleEq) (mem : Memory) (addr : Nat) : Prop :=
  match writer.write hw atrb mem (addr + writer.hdrSz) with
  | none => False
  | some (mem, stop) =>
    (RuleEq.cleared atrb.ruleEqBitmap).parseHwRuleEq hw mem addr writer.hdrSz =
      some (atrb.reduced hw, stop - addr)

instance (hw : HwType) (atrb : RuleEq) (mem : Memory) (addr : Nat) :
    Decidable (writer.RoundTrips hw atrb mem addr) := by
  unfold RoundTrips
  split <;> infer_instance

/-- The operands behind an extension header are all zero, and an even number of words if the
reader begins six bytes early, an odd one if it begins two bytes late. -/
def Vanishes (hw : HwType) (atrb : RuleEq) : Prop :=
  (∀ cell ∈ Equation.rests (atrb.equations hw), cell.value = 0) ∧
    (Equation.rests (atrb.equations hw)).length % 8 =
      if atrb.calcExtraWrdBytes ∈ [0, 7, 8] then 0 else 4

end Writer

section

variable {writer : Writer} {hw : HwType} {atrb : RuleEq} {mem mem' : Memory} {addr stop : Nat}

open RuleEq Equation

theorem Writer.write_writes (agrees : atrb.Agrees hw) (aligned : addr % 8 = 0) :
    Writes (writer.write hw atrb mem (addr + writer.hdrSz)) (addr + writer.hdrSz)
      (atrb.equations hw) := by
  cases writer with
  | fromEq =>
    refine generateHwRuleBdyFromEq_writes agrees mem ?_
    simp only [hdrSz, extHdr, Bool.toNat_false]
    omega
  | fromEq55 ext =>
    refine generateHwRuleBdyFromEq55_writes agrees mem ?_
    have taken : ext.toNat ≤ 1 := Bool.toNat_le ext
    simp only [hdrSz, extHdr]
    omega

theorem parse_laid_iff {base : Nat} (agrees : atrb.Agrees hw) (behind : addr ≤ base)
    (laid : Laid mem' base (ruleAlign (base + (extras (atrb.equations hw)).length)) stop
      (atrb.equations hw)) :
    (RuleEq.cleared atrb.ruleEqBitmap).parseHwRuleEq hw mem' addr (base - addr) =
        some (atrb.reduced hw, stop - addr) ↔
      Matches mem' (base + restOffset atrb.calcExtraWrdBytes) (rests (atrb.equations hw)) ∧
        ruleAlign (base + restOffset atrb.calcExtraWrdBytes + (rests (atrb.equations hw)).length) =
          stop := by
  have extra : Matches mem' base (extras (atrb.equations hw)) :=
    .of_holds (fits_extras _) (holds_append.mp laid.extraHeld).1
  rw [parseHwRuleEq_cleared agrees, Nat.add_sub_cancel' behind, Option.some.injEq, Prod.mk.injEq,
    readOperands_marked.value_iff, Ptrs.MatchesAt, and_iff_right extra]
  refine and_congr_right' ?_
  have stop_eq := laid.stop_eq
  simp only [ruleAlign] at stop_eq ⊢
  omega

/-- What is written is read back with the plain headers always, and with an extension header only
if there is nothing but zeros to be misplaced. -/
theorem Writer.roundTrips_iff (agrees : atrb.Agrees hw) (mem : Memory) (aligned : addr % 8 = 0) :
    writer.RoundTrips hw atrb mem addr ↔
      writer.extHdr = false ∨ Writer.Vanishes hw atrb := by
  obtain ⟨mem', stop, written, laid⟩ := writer.write_writes agrees aligned
  have parsed := parse_laid_iff agrees (Nat.le_add_right addr writer.hdrSz) laid
  rw [Nat.add_sub_cancel_left] at parsed
  unfold RoundTrips
  rw [written]
  dsimp only
  rw [parsed]
  have length := length_extras agrees
  have few := calcExtraWrdBytes_le agrees
  have words := length_rests_mod (atrb.equations hw)
  obtain ⟨-, stop_eq, extraHeld, restHeld⟩ := laid
  rw [length] at stop_eq extraHeld restHeld
  cases ext : writer.extHdr with
  | false =>
    refine iff_of_true ?_ (Or.inl rfl)
    have place : addr + writer.hdrSz + restOffset atrb.calcExtraWrdBytes =
        ruleAlign (addr + writer.hdrSz + atrb.calcExtraWrdBytes) := by
      rw [hdrSz, ext, restOffset, ruleAlign, Bool.toNat_false]
      split_ifs <;> omega
    rw [place]
    exact ⟨.of_holds (fits_rests _) (holds_append.mp restHeld).1, stop_eq.symm⟩
  | true =>
    have hdr : writer.hdrSz = 10 := by
      rw [hdrSz, ext]
      rfl
    have zeros := (holds_append.mp extraHeld).2
    rw [length_values, length] at zeros
    rw [or_iff_right Bool.noConfusion, Writer.Vanishes, and_comm]
    refine Iff.trans ?_ and_comm
    rw [hdr] at zeros restHeld stop_eq ⊢
    generalize rests (atrb.equations hw) = operands at *
    generalize atrb.calcExtraWrdBytes = n at *
    by_cases early : n ∈ [0, 7, 8]
    · have place : addr + 10 + restOffset n + 6 = ruleAlign (addr + 10 + n) := by
        simp only [List.mem_cons, List.not_mem_nil, or_false] at early
        rw [restOffset, ruleAlign]
        split_ifs <;> omega
      rw [if_pos early]
      refine and_congr ?_ (matches_early (by decide : 0 < 6) ?_ ?_)
      · rw [stop_eq, ← place]
        simp only [ruleAlign] at place ⊢
        omega
      · intro i near
        have inside : restOffset n + i - n < ruleAlign (addr + 10 + n) - (addr + 10 + n) := by
          simp only [List.mem_cons, List.not_mem_nil, or_false] at early
          rw [← place, restOffset]
          split_ifs <;> omega
        have behind : n ≤ restOffset n + i := by
          simp only [List.mem_cons, List.not_mem_nil, or_false] at early
          rw [restOffset]
          split_ifs <;> omega
        have zero := zeros (restOffset n + i - n) (by rwa [List.length_replicate])
        rwa [List.getElem_replicate, Nat.add_assoc _ n, Nat.add_sub_cancel' behind,
          ← Nat.add_assoc] at zero
      · rw [place]
        exact (holds_append.mp restHeld).1
    · have place : addr + 10 + restOffset n = ruleAlign (addr + 10 + n) + 2 := by
        simp only [List.mem_cons, List.not_mem_nil, or_false] at early
        rw [restOffset, ruleAlign]
        split_ifs <;> omega
      rw [if_neg early, place]
      have size : ruleAlign (ruleAlign (addr + 10 + n) + 2 + operands.length) = stop ↔
          operands.length % 8 = 4 := by
        rw [stop_eq]
        simp only [ruleAlign]
        omega
      rw [size]
      refine and_congr_right fun odd => matches_late (by decide : 0 < 2) ?_ restHeld
      rw [stop_eq]
      simp only [ruleAlign]
      omega

end

def sampleRuleEq : RuleEq :=
  { RuleEq.cleared 0x22 with
    protocolEqPresent := true
    protocolEq := 17
    numOffsetMeq32 := 1
    offsetMeq32 := ⟨⟨12, 0xFFFFFFFF, 0x0A000001⟩, .cleared⟩ }

theorem sampleRuleEq_agrees : sampleRuleEq.Agrees .v5_5 where
  bitmap := by decide
  meq128 := by decide
  meq32 := by decide
  ihlMeq32 := by decide
  range16 := by decide

theorem sampleRuleEq_roundTrips :
    (Writer.fromEq55 false).RoundTrips .v5_5 sampleRuleEq (fun _ => 0) 64 :=
  (Writer.roundTrips_iff sampleRuleEq_agrees (fun _ => 0) (by decide)).mpr (Or.inl rfl)

/-- Behind an extension header the operands are looked for two bytes too late. -/
theorem sampleRuleEq_misplaced : sampleRuleEq.Agrees .v5_5 ∧
    ¬ (Writer.fromEq55 true).RoundTrips .v5_5 sampleRuleEq (fun _ => 0) 64 :=
  ⟨sampleRuleEq_agrees, by decide +kernel⟩

end VendorModules.Fltrt
