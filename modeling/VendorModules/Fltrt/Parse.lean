import VendorModules.Fltrt.Write

namespace VendorModules.Fltrt

open VendorModules.Lib
open Memory Words Cell

/-! How a rule is read back: `ipa_fltrt_parse_hw_rule_eq`. -/

structure Ptrs where
  extra : Nat
  rest : Nat

section Reading

variable {α : Type} (mem : Memory) (p : Ptrs)

def read8 : BitVec 8 × Ptrs := (mem p.extra, { p with extra := p.extra + 1 })

def readPureAck : BitVec 8 × Ptrs := (0, { p with extra := p.extra + 1 })

def readMeq128 : MaskEq128 × Ptrs :=
  (⟨mem p.extra,
    fun i => if i.val < 8 then mem (p.rest + i) else mem (p.rest + 8 + i),
    fun i => if i.val < 8 then mem (p.rest + 8 + i) else mem (p.rest + 16 + i)⟩,
    ⟨p.extra + 1, p.rest + 32⟩)

def readMeq32 : MaskEq32 × Ptrs :=
  (⟨mem p.extra, word mem p.rest, word mem (p.rest + 4)⟩, ⟨p.extra + 1, p.rest + 8⟩)

def readMetadata (old : MaskEq32) : MaskEq32 × Ptrs :=
  ({ old with mask := word mem p.rest, value := word mem (p.rest + 4) },
    { p with rest := p.rest + 8 })

def readRange16 : RangeEq16 × Ptrs :=
  ({ offset := mem p.extra, rangeHigh := half mem p.rest, rangeLow := half mem (p.rest + 2) },
    ⟨p.extra + 1, p.rest + 4⟩)

def readEq32 : Eq32 × Ptrs := (⟨mem p.extra, word mem p.rest⟩, ⟨p.extra + 1, p.rest + 4⟩)

def readEq16 : Eq16 × Ptrs := (⟨mem p.extra, half mem p.rest⟩, ⟨p.extra + 1, p.rest + 4⟩)

def readFl : BitVec 32 × Ptrs := (word mem p.rest &&& 0xFFFFF, { p with rest := p.rest + 4 })

def readIf (present : Bool) (old : α) (read : Ptrs → α × Ptrs) : α × Ptrs :=
  if present then read p else (old, p)

def readSlots (num : Nat) (old : Slots α) (read : Ptrs → α × Ptrs) : Slots α × Ptrs :=
  let zero := readIf p (decide (0 < num)) old.zero read
  let one := readIf zero.2 (decide (1 < num)) old.one read
  (⟨zero.1, one.1⟩, one.2)

end Reading

namespace RuleEq

variable (hw : HwType) (atrb : RuleEq)

def markPresent : RuleEq :=
  let has := hw.hasEq atrb.ruleEqBitmap
  { atrb with
    tosEqPresent := atrb.tosEqPresent || (hw.isRuleEqValid .isPureAck && has .isPureAck) ||
      (hw.isRuleEqValid .tosEq && has .tosEq)
    protocolEqPresent := atrb.protocolEqPresent || has .protocolEq
    tcEqPresent := atrb.tcEqPresent || has .tcEq
    numOffsetMeq128 := atrb.numOffsetMeq128 + (has .offsetMeq128_0).toNat +
      (has .offsetMeq128_1).toNat
    numOffsetMeq32 := atrb.numOffsetMeq32 + (has .offsetMeq32_0).toNat +
      (has .offsetMeq32_1).toNat
    numIhlOffsetMeq32 := atrb.numIhlOffsetMeq32 + (has .ihlOffsetMeq32_0).toNat +
      (has .ihlOffsetMeq32_1).toNat
    metadataMeq32Present := atrb.metadataMeq32Present || has .metadataCompare
    numIhlOffsetRange16 := atrb.numIhlOffsetRange16 + (has .ihlOffsetRange16_0).toNat +
      (has .ihlOffsetRange16_1).toNat
    ihlOffsetEq32Present := atrb.ihlOffsetEq32Present || has .ihlOffsetEq32
    ihlOffsetEq16Present := atrb.ihlOffsetEq16Present || has .ihlOffsetEq16
    flEqPresent := atrb.flEqPresent || has .flEq
    ipv4FragEqPresent := atrb.ipv4FragEqPresent || has .isFrag }

def readOperands (mem : Memory) (p : Ptrs) : RuleEq × Ptrs :=
  let tos := readIf p (hw.isRuleEqValid .tosEq && atrb.tosEqPresent) atrb.tosEq (read8 mem)
  let ack := readIf tos.2 (hw.isRuleEqValid .isPureAck && atrb.tosEqPresent) tos.1 readPureAck
  let protocol := readIf ack.2 atrb.protocolEqPresent atrb.protocolEq (read8 mem)
  let tc := readIf protocol.2 atrb.tcEqPresent atrb.tcEq (read8 mem)
  let meq128 := readSlots tc.2 atrb.numOffsetMeq128 atrb.offsetMeq128 (readMeq128 mem)
  let meq32 := readSlots meq128.2 atrb.numOffsetMeq32 atrb.offsetMeq32 (readMeq32 mem)
  let ihlMeq32 := readSlots meq32.2 atrb.numIhlOffsetMeq32 atrb.ihlOffsetMeq32 (readMeq32 mem)
  let metadata := readIf ihlMeq32.2 atrb.metadataMeq32Present atrb.metadataMeq32
    (readMetadata mem · atrb.metadataMeq32)
  let range16 := readSlots metadata.2 atrb.numIhlOffsetRange16 atrb.ihlOffsetRange16
    (readRange16 mem)
  let eq32 := readIf range16.2 atrb.ihlOffsetEq32Present atrb.ihlOffsetEq32 (readEq32 mem)
  let eq16 := readIf eq32.2 atrb.ihlOffsetEq16Present atrb.ihlOffsetEq16 (readEq16 mem)
  let fl := readIf eq16.2 atrb.flEqPresent atrb.flEq (readFl mem)
  ({ atrb with
      tosEq := ack.1
      protocolEq := protocol.1
      tcEq := tc.1
      offsetMeq128 := meq128.1
      offsetMeq32 := meq32.1
      ihlOffsetMeq32 := ihlMeq32.1
      metadataMeq32 := metadata.1
      ihlOffsetRange16 := range16.1
      ihlOffsetEq32 := eq32.1
      ihlOffsetEq16 := eq16.1
      flEq := fl.1 }, fl.2)

/-- The description and the size of the rule. Without extra bytes none is read from where the
pointer to them is. -/
def parseHwRuleEq (mem : Memory) (addr hdrSz : Nat) : Option (RuleEq × Nat) :=
  let atrb := atrb.markPresent hw
  let extraBytes := atrb.calcExtraWrdBytes
  if 13 < extraBytes then none
  else
    let extra := addr + hdrSz
    let rest :=
      if 8 < extraBytes then extra + 8 * 2
      else if 0 < extraBytes then extra + 8
      else addr + hdrSz
    let read := atrb.readOperands hw mem ⟨extra, rest⟩
    some (read.1, ruleAlign read.2.rest - addr)

end RuleEq

/-! ### What is read -/

namespace Ptrs

open Equation

variable (mem : Memory) (p : Ptrs) (eqs : List Equation)

def skip : Ptrs := ⟨p.extra + (extras eqs).length, p.rest + (rests eqs).length⟩

def MatchesAt : Prop := Matches mem p.extra (extras eqs) ∧ Matches mem p.rest (rests eqs)

variable {mem p eqs}

theorem skip_append (more : List Equation) : p.skip (eqs ++ more) = (p.skip eqs).skip more := by
  simp only [skip, extras_append, rests_append, List.length_append, Nat.add_assoc]

theorem matchesAt_append (more : List Equation) :
    p.MatchesAt mem (eqs ++ more) ↔ p.MatchesAt mem eqs ∧ (p.skip eqs).MatchesAt mem more := by
  simp only [MatchesAt, skip, extras_append, rests_append, matches_append]
  exact and_and_and_comm

end Ptrs

structure Reads {α : Type} (mem : Memory) (p : Ptrs) (result : α × Ptrs) (value : α)
    (eqs : List Equation) : Prop where
  next : result.2 = p.skip eqs
  value_iff : result.1 = value ↔ p.MatchesAt mem eqs

namespace Reads

open Equation

variable {α : Type} {mem : Memory} {p : Ptrs}

theorem of_if {present : Bool} {old value : α} {read : Ptrs → α × Ptrs} {eq : Equation}
    (reads : Reads mem p (read p) value [eq]) :
    Reads mem p (readIf p present old read) (if present then value else old)
      (onlyIf present eq) := by
  cases present with
  | false => exact ⟨rfl, iff_of_true rfl ⟨trivial, trivial⟩⟩
  | true => exact reads

theorem slots {num : Nat} {slots : Slots α} {cleared : α} {read : Ptrs → α × Ptrs}
    {mk : α → Equation} (reads : ∀ p value, Reads mem p (read p) value [mk value]) :
    Reads mem p (readSlots p num ⟨cleared, cleared⟩ read) (slots.kept num cleared)
      (slots.listed num mk) := by
  have zero : Reads mem p (readIf p (decide (0 < num)) cleared read) _ _ :=
    of_if (reads p slots.zero)
  have one : Reads mem _ (readIf _ (decide (1 < num)) cleared read) _ _ :=
    of_if (reads (readIf p (decide (0 < num)) cleared read).2 slots.one)
  refine ⟨?_, ?_⟩
  · rw [Slots.listed, Ptrs.skip_append, ← zero.next]
    exact one.next
  · rw [Slots.listed, Ptrs.matchesAt_append, ← zero.next, ← zero.value_iff, ← one.value_iff]
    simp only [readSlots, Slots.kept, Slots.mk.injEq, decide_eq_true_eq]

theorem matches_extra_iff {byte : BitVec 8} {pos : Nat} :
    Matches mem pos (ofBytes [byte]) ↔ mem pos = byte := by
  rw [matches_ofBytes]
  constructor
  · exact fun held => held 0 Nat.zero_lt_one
  · rintro rfl i inside
    obtain rfl : i = 0 := Nat.lt_one_iff.mp inside
    rfl

theorem byte8 (eq : BitVec 8 → Equation) (value : BitVec 8)
    (extra : ∀ value, (eq value).extraCells = ofBytes [value])
    (rest : ∀ value, (eq value).restCells = []) :
    Reads mem p (read8 mem p) value [eq value] := by
  constructor
  · simp [read8, Ptrs.skip, extra, rest]
  · simp only [read8, Ptrs.MatchesAt, extras_singleton, rests_singleton, extra, rest,
      matches_extra_iff, matches_nil, and_true]

theorem pureAck : Reads mem p (readPureAck p) 0 [.pureAck] := by
  refine ⟨rfl, iff_of_true rfl ?_⟩
  simp [Ptrs.MatchesAt, extraCells, restCells]

theorem holds_bytes32_pair {pos : Nat} {mask value : BitVec 32} :
    Matches mem pos (ofBytes (bytes32 mask ++ bytes32 value)) ↔
      word mem pos = mask ∧ word mem (pos + 4) = value := by
  rw [matches_ofBytes, holds_append, ← word_eq_iff, ← word_eq_iff, length_bytes32]

theorem meq32 (eq : MaskEq32 → Equation) (value : MaskEq32)
    (extra : ∀ value, (eq value).extraCells = ofBytes [value.offset])
    (rest : ∀ value, (eq value).restCells = ofBytes (bytes32 value.mask ++ bytes32 value.value)) :
    Reads mem p (readMeq32 mem p) value [eq value] := by
  constructor
  · simp [readMeq32, Ptrs.skip, extra, rest]
  · rw [Ptrs.MatchesAt, extras_singleton, rests_singleton, extra, rest, matches_extra_iff,
      holds_bytes32_pair]
    cases value
    simp only [readMeq32, MaskEq32.mk.injEq]

theorem metadata (value : MaskEq32) :
    Reads mem p (readMetadata mem p .cleared) { value with offset := 0 }
      [.metadata value.mask value.value] := by
  constructor
  · simp [readMetadata, Ptrs.skip, extraCells, restCells]
  · simp only [Ptrs.MatchesAt, extras_singleton, rests_singleton, extraCells, restCells,
      holds_bytes32_pair, matches_nil, true_and, readMetadata, MaskEq32.cleared, MaskEq32.mk.injEq]

theorem range16 (value : RangeEq16) :
    Reads mem p (readRange16 mem p) value [.ihlOffsetRange16 value] := by
  constructor
  · simp [readRange16, Ptrs.skip, extraCells, restCells]
  · rw [Ptrs.MatchesAt, extras_singleton, rests_singleton, extraCells, restCells,
      matches_extra_iff, matches_ofBytes, holds_append, ← half_eq_iff, ← half_eq_iff,
      length_bytes16]
    cases value
    simp only [readRange16, RangeEq16.mk.injEq]
    exact and_congr_right' and_comm

theorem eq32 (value : Eq32) : Reads mem p (readEq32 mem p) value [.ihlOffsetEq32 value] := by
  constructor
  · simp [readEq32, Ptrs.skip, extraCells, restCells]
  · rw [Ptrs.MatchesAt, extras_singleton, rests_singleton, extraCells, restCells,
      matches_extra_iff, matches_ofBytes, ← word_eq_iff]
    cases value
    simp only [readEq32, Eq32.mk.injEq]

theorem eq16 (value : Eq16) : Reads mem p (readEq16 mem p) value [.ihlOffsetEq16 value] := by
  constructor
  · simp [readEq16, Ptrs.skip, extraCells, restCells]
  · rw [Ptrs.MatchesAt, extras_singleton, rests_singleton, extraCells, restCells,
      matches_extra_iff, matches_append, matches_ofBytes, ← half_eq_iff]
    cases value
    simp [readEq16]

theorem holds_lowHalf {pos : Nat} {operand : Fin 16 → BitVec 8} :
    Holds mem pos (lowHalf operand) ↔ ∀ i : Fin 16, i.val < 8 → mem (pos + i) = operand i := by
  have length : (lowHalf operand).length = 8 := by simp [lowHalf]
  constructor
  · intro held i low
    rw [held i (by omega)]
    simp only [lowHalf, List.getElem_take, List.getElem_ofFn]
  · intro all i inside
    rw [length] at inside
    rw [all ⟨i, by omega⟩ inside]
    simp only [lowHalf, List.getElem_take, List.getElem_ofFn]

theorem holds_highHalf {pos : Nat} {operand : Fin 16 → BitVec 8} :
    Holds mem (pos + 8) (highHalf operand) ↔
      ∀ i : Fin 16, ¬i.val < 8 → mem (pos + i) = operand i := by
  have length : (highHalf operand).length = 8 := by simp [highHalf]
  constructor
  · intro held i high
    have at_i := held (i - 8) (by omega)
    rw [Nat.add_assoc, Nat.add_sub_cancel' (Nat.not_lt.mp high)] at at_i
    rw [at_i]
    simp only [highHalf, List.getElem_drop, List.getElem_ofFn,
      Nat.add_sub_cancel' (Nat.not_lt.mp high)]
  · intro all i inside
    rw [length] at inside
    have at_i := all ⟨8 + i, by omega⟩ (by simp)
    rw [Nat.add_assoc, at_i]
    simp only [highHalf, List.getElem_drop, List.getElem_ofFn]

theorem meq128 (value : MaskEq128) :
    Reads mem p (readMeq128 mem p) value [.offsetMeq128 value] := by
  have low (operand : Fin 16 → BitVec 8) : (lowHalf operand).length = 8 := by simp [lowHalf]
  have high (operand : Fin 16 → BitVec 8) : (highHalf operand).length = 8 := by simp [highHalf]
  constructor
  · simp [readMeq128, Ptrs.skip, extraCells, restCells, low, high]
  · rw [Ptrs.MatchesAt, extras_singleton, rests_singleton, extraCells, restCells,
      matches_extra_iff, matches_ofBytes, holds_append, holds_append, holds_append]
    simp only [List.length_append, low, high]
    rw [show p.rest + (8 + 8) = p.rest + 8 + 8 from rfl,
      show p.rest + (8 + 8 + 8) = p.rest + 16 + 8 from rfl, holds_highHalf, holds_highHalf,
      holds_lowHalf, holds_lowHalf]
    cases value with
    | mk offset mask value =>
      simp only [readMeq128, MaskEq128.mk.injEq, funext_iff]
      refine and_congr_right' ⟨?_, ?_⟩
      · rintro ⟨masks, values⟩
        refine ⟨⟨⟨fun i within => ?_, fun i within => ?_⟩, fun i beyond => ?_⟩,
          fun i beyond => ?_⟩
        · rw [← masks i, if_pos within]
        · rw [← values i, if_pos within]
        · rw [← masks i, if_neg beyond]
        · rw [← values i, if_neg beyond]
      · rintro ⟨⟨⟨lowMask, lowValue⟩, highMask⟩, highValue⟩
        refine ⟨fun i => ?_, fun i => ?_⟩
        · split
          · exact lowMask i ‹_›
          · exact highMask i ‹_›
        · split
          · exact lowValue i ‹_›
          · exact highValue i ‹_›

theorem eq_iff_bytes {x y : BitVec 32} :
    x = y ↔ byte x 0 = byte y 0 ∧ byte x 1 = byte y 1 ∧ byte x 2 = byte y 2 ∧
      byte x 3 = byte y 3 := by
  constructor
  · rintro rfl
    exact ⟨rfl, rfl, rfl, rfl⟩
  · rintro ⟨zero, one, two, three⟩
    rw [← append_bytes x, ← append_bytes y, zero, one, two, three]

theorem byte_and (x y : BitVec 32) (lane : Nat) : byte (x &&& y) lane = byte x lane &&& byte y lane :=
  BitVec.extractLsb'_and

theorem fl (value : BitVec 32) :
    Reads mem p (readFl mem p) (value &&& 0xFFFFF) [.fl value] := by
  constructor
  · simp [readFl, Ptrs.skip, extraCells, restCells]
  · have zero : byte (0xFFFFF : BitVec 32) 0 = BitVec.allOnes 8 := by decide
    have one : byte (0xFFFFF : BitVec 32) 1 = BitVec.allOnes 8 := by decide
    have two : byte (0xFFFFF : BitVec 32) 2 = 0x0F := by decide
    have three : byte (0xFFFFF : BitVec 32) 3 = 0 := by decide
    have nothing (byte : BitVec 8) : byte &&& 0 = 0 := BitVec.and_zero
    rw [Ptrs.MatchesAt, extras_singleton, rests_singleton, extraCells, restCells, readFl,
      eq_iff_bytes]
    simp only [byte_and, zero, one, two, three, nothing, BitVec.and_allOnes, matches_nil,
      matches_cons, full, true_and, and_true]
    rw [byte_word mem p.rest 0 (by decide), byte_word mem p.rest 1 (by decide),
      byte_word mem p.rest 2 (by decide)]
    rfl

end Reads

namespace RuleEq

variable {hw : HwType} {atrb : RuleEq} {mem : Memory} {p : Ptrs}

def marked (atrb : RuleEq) : RuleEq :=
  { RuleEq.cleared atrb.ruleEqBitmap with
    tosEqPresent := atrb.tosEqPresent
    protocolEqPresent := atrb.protocolEqPresent
    numIhlOffsetRange16 := atrb.numIhlOffsetRange16
    numOffsetMeq32 := atrb.numOffsetMeq32
    tcEqPresent := atrb.tcEqPresent
    flEqPresent := atrb.flEqPresent
    ihlOffsetEq16Present := atrb.ihlOffsetEq16Present
    ihlOffsetEq32Present := atrb.ihlOffsetEq32Present
    numIhlOffsetMeq32 := atrb.numIhlOffsetMeq32
    numOffsetMeq128 := atrb.numOffsetMeq128
    metadataMeq32Present := atrb.metadataMeq32Present
    ipv4FragEqPresent := atrb.ipv4FragEqPresent }

theorem readTos_reads :
    Reads mem p
      (readIf (readIf p (hw.isRuleEqValid .tosEq && atrb.tosEqPresent) 0 (read8 mem)).2
        (hw.isRuleEqValid .isPureAck && atrb.tosEqPresent)
        (readIf p (hw.isRuleEqValid .tosEq && atrb.tosEqPresent) 0 (read8 mem)).1 readPureAck)
      (if atrb.tosEqPresent && hw.isRuleEqValid .tosEq then atrb.tosEq else 0)
      (onlyIf atrb.tosEqPresent (atrb.firstEquation hw)) := by
  rw [HwType.isRuleEqValid_tosEq, firstEquation]
  cases hw.isRuleEqValid .isPureAck with
  | true =>
    rw [Bool.not_true, Bool.and_false, Bool.true_and, Bool.false_and, if_pos rfl]
    have ack : Reads mem p (readIf p atrb.tosEqPresent 0 readPureAck) _ _ :=
      Reads.of_if Reads.pureAck
    rwa [ite_self] at ack
  | false =>
    rw [Bool.not_false, Bool.and_true, Bool.true_and, Bool.false_and,
      if_neg Bool.false_ne_true]
    exact Reads.of_if (Reads.byte8 .tos atrb.tosEq (fun _ => rfl) fun _ => rfl)

theorem readOperands_marked :
    Reads mem p (atrb.marked.readOperands hw mem p) (atrb.reduced hw) (atrb.equations hw) := by
  have tos : Reads mem p _ _ (onlyIf atrb.tosEqPresent (atrb.firstEquation hw)) :=
    readTos_reads
  have protocol {q : Ptrs} : Reads mem q (readIf q atrb.protocolEqPresent 0 (read8 mem)) _ _ :=
    .of_if (.byte8 .protocol atrb.protocolEq (fun _ => rfl) fun _ => rfl)
  have tc {q : Ptrs} : Reads mem q (readIf q atrb.tcEqPresent 0 (read8 mem)) _ _ :=
    .of_if (.byte8 .tc atrb.tcEq (fun _ => rfl) fun _ => rfl)
  have meq128 {q : Ptrs} : Reads mem q
      (readSlots q atrb.numOffsetMeq128 ⟨.cleared, .cleared⟩ (readMeq128 mem))
      (atrb.offsetMeq128.kept atrb.numOffsetMeq128 .cleared) _ :=
    .slots fun _ value => .meq128 value
  have meq32 {q : Ptrs} : Reads mem q
      (readSlots q atrb.numOffsetMeq32 ⟨.cleared, .cleared⟩ (readMeq32 mem))
      (atrb.offsetMeq32.kept atrb.numOffsetMeq32 .cleared) _ :=
    .slots fun _ value => .meq32 .offsetMeq32 value (fun _ => rfl) fun _ => rfl
  have ihlMeq32 {q : Ptrs} : Reads mem q
      (readSlots q atrb.numIhlOffsetMeq32 ⟨.cleared, .cleared⟩ (readMeq32 mem))
      (atrb.ihlOffsetMeq32.kept atrb.numIhlOffsetMeq32 .cleared) _ :=
    .slots fun _ value => .meq32 .ihlOffsetMeq32 value (fun _ => rfl) fun _ => rfl
  have metadata {q : Ptrs} : Reads mem q
      (readIf q atrb.metadataMeq32Present .cleared (readMetadata mem · .cleared)) _ _ :=
    .of_if (.metadata atrb.metadataMeq32)
  have range16 {q : Ptrs} : Reads mem q
      (readSlots q atrb.numIhlOffsetRange16 ⟨.cleared, .cleared⟩ (readRange16 mem))
      (atrb.ihlOffsetRange16.kept atrb.numIhlOffsetRange16 .cleared) _ :=
    .slots fun _ value => .range16 value
  have eq32 {q : Ptrs} : Reads mem q
      (readIf q atrb.ihlOffsetEq32Present .cleared (readEq32 mem)) _ _ :=
    .of_if (.eq32 atrb.ihlOffsetEq32)
  have eq16 {q : Ptrs} : Reads mem q
      (readIf q atrb.ihlOffsetEq16Present .cleared (readEq16 mem)) _ _ :=
    .of_if (.eq16 atrb.ihlOffsetEq16)
  have fl {q : Ptrs} : Reads mem q (readIf q atrb.flEqPresent 0 (readFl mem)) _ _ :=
    .of_if (.fl atrb.flEq)
  have frag (q : Ptrs) : q.skip (onlyIf atrb.ipv4FragEqPresent .frag) = q ∧
      q.MatchesAt mem (onlyIf atrb.ipv4FragEqPresent .frag) := by
    cases atrb.ipv4FragEqPresent <;> exact ⟨rfl, trivial, trivial⟩
  constructor
  · simp only [equations, List.flatten_cons, List.flatten_nil, List.append_nil, Ptrs.skip_append,
      (frag _).1]
    rw [← tos.next, ← protocol.next, ← tc.next, ← meq128.next, ← meq32.next, ← ihlMeq32.next,
      ← metadata.next, ← range16.next, ← eq32.next, ← eq16.next, ← fl.next]
    rfl
  · simp only [equations, List.flatten_cons, List.flatten_nil, List.append_nil,
      Ptrs.matchesAt_append, (frag _).2, and_true]
    rw [← tos.next, ← tos.value_iff, ← protocol.next, ← protocol.value_iff, ← tc.next,
      ← tc.value_iff, ← meq128.next, ← meq128.value_iff, ← meq32.next, ← meq32.value_iff,
      ← ihlMeq32.next, ← ihlMeq32.value_iff, ← metadata.next, ← metadata.value_iff,
      ← range16.next, ← range16.value_iff, ← eq32.next, ← eq32.value_iff, ← eq16.next,
      ← eq16.value_iff, ← fl.value_iff]
    simp only [readOperands, marked, cleared, reduced, RuleEq.mk.injEq, true_and, and_true]
    constructor
    · rintro ⟨tos, protocol, range16, meq32, tc, fl, eq16, eq32, ihlMeq32, meq128, metadata⟩
      exact ⟨tos, protocol, tc, meq128, meq32, ihlMeq32, metadata, range16, eq32, eq16, fl⟩
    · rintro ⟨tos, protocol, tc, meq128, meq32, ihlMeq32, metadata, range16, eq32, eq16, fl⟩
      exact ⟨tos, protocol, range16, meq32, tc, fl, eq16, eq32, ihlMeq32, meq128, metadata⟩

theorem mem_onlyIf {α : Type} {present : Bool} {value other : α} :
    value ∈ onlyIf present other ↔ present = true ∧ value = other := by
  cases present <;> simp [onlyIf]

theorem isRuleEqValid_of_mem {eq : FltrtEquation} (member : eq ∈ atrb.enabled hw) :
    hw.isRuleEqValid eq = true := by
  simp only [enabled, List.flatten_cons, List.flatten_nil, List.append_nil, List.mem_append,
    mem_onlyIf] at member
  rcases member with ⟨-, rfl⟩ | member
  · exact HwType.isRuleEqValid_tosOrAck
  · refine HwType.isRuleEqValid_of_ne ?_ ?_ <;> rintro rfl <;> simp at member

theorem hasEq_of_agrees (agrees : atrb.Agrees hw) {eq : FltrtEquation}
    (valid : hw.isRuleEqValid eq = true) :
    hw.hasEq atrb.ruleEqBitmap eq = decide (eq ∈ atrb.enabled hw) := by
  rw [agrees.bitmap, HwType.hasEq_bitmapOf valid fun other member => isRuleEqValid_of_mem member]

theorem markPresent_cleared (agrees : atrb.Agrees hw) :
    (RuleEq.cleared atrb.ruleEqBitmap).markPresent hw = atrb.marked := by
  have bit (eq : FltrtEquation) (tos : eq ≠ .tosEq) (ack : eq ≠ .isPureAck) :
      hw.hasEq atrb.ruleEqBitmap eq = decide (eq ∈ atrb.enabled hw) :=
    hasEq_of_agrees agrees (HwType.isRuleEqValid_of_ne tos ack)
  have plain (eq : FltrtEquation) (tos : eq ≠ .tosEq) (ack : eq ≠ .isPureAck) :
      eq ≠ hw.tosOrAck := by
    rw [HwType.tosOrAck]
    split
    · exact ack
    · exact tos
  have first : (hw.isRuleEqValid .isPureAck && hw.hasEq atrb.ruleEqBitmap .isPureAck ||
      hw.isRuleEqValid .tosEq && hw.hasEq atrb.ruleEqBitmap .tosEq) = atrb.tosEqPresent := by
    have valid : hw.isRuleEqValid .tosEq = !hw.isRuleEqValid .isPureAck :=
      HwType.isRuleEqValid_tosEq
    cases ack : hw.isRuleEqValid .isPureAck with
    | true =>
      rw [ack] at valid
      rw [valid, hasEq_of_agrees agrees ack]
      simp [enabled, HwType.tosOrAck, ack, mem_onlyIf]
    | false =>
      rw [ack] at valid
      rw [valid, hasEq_of_agrees agrees valid]
      simp [enabled, HwType.tosOrAck, ack, mem_onlyIf]
  have two {num : Nat} (small : num ≤ 2) :
      (decide (0 < num)).toNat + (decide (1 < num)).toNat = num := by
    interval_cases num <;> rfl
  simp only [markPresent, cleared, marked, RuleEq.mk.injEq, true_and]
  simp [bit, plain, enabled, mem_onlyIf, first]
  exact ⟨two agrees.range16, two agrees.meq32, two agrees.ihlMeq32, two agrees.meq128⟩

def restOffset (extraBytes : Nat) : Nat :=
  if 8 < extraBytes then 16 else if 0 < extraBytes then 8 else 0

theorem parseHwRuleEq_cleared (agrees : atrb.Agrees hw) (addr hdrSz : Nat) :
    (RuleEq.cleared atrb.ruleEqBitmap).parseHwRuleEq hw mem addr hdrSz =
      some ((atrb.marked.readOperands hw mem
        ⟨addr + hdrSz, addr + hdrSz + restOffset atrb.calcExtraWrdBytes⟩).1,
        ruleAlign (addr + hdrSz + restOffset atrb.calcExtraWrdBytes +
          (Equation.rests (atrb.equations hw)).length) - addr) := by
  have few : ¬13 < atrb.marked.calcExtraWrdBytes := by
    have few := calcExtraWrdBytes_le agrees
    exact Nat.not_lt.mpr few
  have place : (if 8 < atrb.marked.calcExtraWrdBytes then addr + hdrSz + 8 * 2
      else if 0 < atrb.marked.calcExtraWrdBytes then addr + hdrSz + 8 else addr + hdrSz) =
        addr + hdrSz + restOffset atrb.calcExtraWrdBytes := by
    change _ = addr + hdrSz + restOffset atrb.marked.calcExtraWrdBytes
    unfold restOffset
    split
    · rfl
    · split <;> rfl
  rw [parseHwRuleEq, markPresent_cleared agrees]
  dsimp only
  rw [if_neg few, place, readOperands_marked.next]
  rfl

end RuleEq

end VendorModules.Fltrt
