import Mathlib.Data.Fintype.Pi
import VendorModules.Lib.Streams

namespace VendorModules.Fltrt

open VendorModules.Lib

/-! The equations that a filter or routing rule is made of, the bits of the rule header that
enable them, and the bytes they lie in. -/

/-- The entries of `ipahal_fltrt_objs`. -/
inductive HwType
  | v3_0 | v4_0 | v4_2 | v4_5 | v5_0 | v5_5
  deriving DecidableEq, Repr

inductive FltrtEquation
  | tosEq
  | protocolEq
  | tcEq
  | offsetMeq128_0
  | offsetMeq128_1
  | offsetMeq32_0
  | offsetMeq32_1
  | ihlOffsetMeq32_0
  | ihlOffsetMeq32_1
  | metadataCompare
  | ihlOffsetRange16_0
  | ihlOffsetRange16_1
  | ihlOffsetEq32
  | ihlOffsetEq16
  | flEq
  | isFrag
  | isPureAck
  deriving DecidableEq, Repr

namespace HwType

variable (hw : HwType)

def eqBitfield : FltrtEquation → Nat
  | .tosEq => match hw with
      | .v3_0 | .v4_0 | .v4_2 => 0
      | .v4_5 | .v5_0 | .v5_5 => 0xFF
  | .protocolEq => 1
  | .tcEq => 2
  | .offsetMeq128_0 => 3
  | .offsetMeq128_1 => 4
  | .offsetMeq32_0 => 5
  | .offsetMeq32_1 => 6
  | .ihlOffsetMeq32_0 => 7
  | .ihlOffsetMeq32_1 => 8
  | .metadataCompare => 9
  | .ihlOffsetRange16_0 => 10
  | .ihlOffsetRange16_1 => 11
  | .ihlOffsetEq32 => 12
  | .ihlOffsetEq16 => 13
  | .flEq => 14
  | .isFrag => 15
  | .isPureAck => match hw with
      | .v3_0 | .v4_0 | .v4_2 => 0xFF
      | .v4_5 | .v5_0 | .v5_5 => 0

def isRuleEqValid (eq : FltrtEquation) : Bool := hw.eqBitfield eq != 0xFF

def ruleEqBitPtrn (eq : FltrtEquation) : BitVec 16 := BitVec.twoPow 16 (hw.eqBitfield eq)

def hasEq (bitmap : BitVec 16) (eq : FltrtEquation) : Bool := bitmap &&& hw.ruleEqBitPtrn eq != 0

def bitmapOf (eqs : List FltrtEquation) : BitVec 16 :=
  eqs.foldl (fun bitmap eq => bitmap ||| hw.ruleEqBitPtrn eq) 0

def tosOrAck : FltrtEquation := if hw.isRuleEqValid .isPureAck then .isPureAck else .tosEq

variable {hw} {eq : FltrtEquation} {eqs : List FltrtEquation}

theorem isRuleEqValid_tosEq : hw.isRuleEqValid .tosEq = !hw.isRuleEqValid .isPureAck := by
  cases hw <;> rfl

theorem isRuleEqValid_tosOrAck : hw.isRuleEqValid hw.tosOrAck = true := by
  cases hw <;> rfl

theorem isRuleEqValid_of_ne (tos : eq ≠ .tosEq) (ack : eq ≠ .isPureAck) :
    hw.isRuleEqValid eq = true := by
  cases eq with
  | tosEq => exact absurd rfl tos
  | isPureAck => exact absurd rfl ack
  | _ => rfl

private def equationOf (hw : HwType) : Nat → FltrtEquation
  | 0 => hw.tosOrAck
  | 1 => .protocolEq
  | 2 => .tcEq
  | 3 => .offsetMeq128_0
  | 4 => .offsetMeq128_1
  | 5 => .offsetMeq32_0
  | 6 => .offsetMeq32_1
  | 7 => .ihlOffsetMeq32_0
  | 8 => .ihlOffsetMeq32_1
  | 9 => .metadataCompare
  | 10 => .ihlOffsetRange16_0
  | 11 => .ihlOffsetRange16_1
  | 12 => .ihlOffsetEq32
  | 13 => .ihlOffsetEq16
  | 14 => .flEq
  | _ => .isFrag

private theorem equationOf_eqBitfield (valid : hw.isRuleEqValid eq = true) :
    equationOf hw (hw.eqBitfield eq) = eq ∧ hw.eqBitfield eq < 16 := by
  cases eq with
  | tosEq => cases hw <;> first | exact ⟨rfl, by decide⟩ | cases valid
  | isPureAck => cases hw <;> first | exact ⟨rfl, by decide⟩ | cases valid
  | _ => exact ⟨rfl, by simp only [eqBitfield]; decide⟩

theorem eqBitfield_inj {other : FltrtEquation} (valid : hw.isRuleEqValid eq = true)
    (valid' : hw.isRuleEqValid other = true) :
    hw.eqBitfield eq = hw.eqBitfield other ↔ eq = other := by
  refine ⟨fun same => ?_, congrArg _⟩
  rw [← (equationOf_eqBitfield valid).1, same, (equationOf_eqBitfield valid').1]

theorem getLsbD_bitmapOf (n : Nat) :
    (hw.bitmapOf eqs).getLsbD n = true ↔ n < 16 ∧ ∃ eq ∈ eqs, hw.eqBitfield eq = n := by
  induction eqs using List.reverseRecOn with
  | nil => simp [bitmapOf]
  | append_singleton eqs eq ih =>
    rw [bitmapOf, List.foldl_append]
    change ((hw.bitmapOf eqs ||| hw.ruleEqBitPtrn eq).getLsbD n = true ↔ _)
    rw [BitVec.getLsbD_or, Bool.or_eq_true, ih, ruleEqBitPtrn, BitVec.getLsbD_twoPow,
      Bool.and_eq_true, decide_eq_true_eq, decide_eq_true_eq]
    simp only [List.mem_append, List.mem_singleton, or_and_right, exists_or, exists_eq_left]
    rw [and_or_left]
    refine or_congr_right ⟨?_, ?_⟩
    · rintro ⟨inside, rfl⟩
      exact ⟨inside, rfl⟩
    · rintro ⟨inside, rfl⟩
      exact ⟨inside, rfl⟩

theorem hasEq_bitmapOf (valid : hw.isRuleEqValid eq = true)
    (all : ∀ other ∈ eqs, hw.isRuleEqValid other = true) :
    hw.hasEq (hw.bitmapOf eqs) eq = decide (eq ∈ eqs) := by
  rw [Bool.eq_iff_iff, decide_eq_true_eq, hasEq, bne_iff_ne, ruleEqBitPtrn, BitVec.and_twoPow]
  have inside := (equationOf_eqBitfield valid).2
  have found : (hw.bitmapOf eqs).getLsbD (hw.eqBitfield eq) = true ↔ eq ∈ eqs := by
    rw [getLsbD_bitmapOf]
    constructor
    · rintro ⟨-, other, member, same⟩
      rwa [← (eqBitfield_inj (all other member) valid).mp same]
    · exact fun member => ⟨inside, eq, member, rfl⟩
  rw [← found]
  split
  · rename_i bit
    refine iff_of_true (fun zero => ?_) bit
    have one := congrArg (fun x : BitVec 16 => x.getLsbD (hw.eqBitfield eq)) zero
    simp [inside] at one
  · rename_i bit
    exact iff_of_false (fun ne => ne rfl) bit

end HwType

/-! ### Descriptions -/

structure Eq16 where
  offset : BitVec 8
  value : BitVec 16
  deriving DecidableEq, Repr

structure Eq32 where
  offset : BitVec 8
  value : BitVec 32
  deriving DecidableEq, Repr

structure MaskEq32 where
  offset : BitVec 8
  mask : BitVec 32
  value : BitVec 32
  deriving DecidableEq, Repr

structure MaskEq128 where
  offset : BitVec 8
  mask : Fin 16 → BitVec 8
  value : Fin 16 → BitVec 8
  deriving DecidableEq

structure RangeEq16 where
  offset : BitVec 8
  rangeLow : BitVec 16
  rangeHigh : BitVec 16
  deriving DecidableEq, Repr

structure Slots (α : Type) where
  zero : α
  one : α
  deriving DecidableEq, Repr

/-- `ipa_ipfltri_rule_eq`. -/
structure RuleEq where
  ruleEqBitmap : BitVec 16
  tosEqPresent : Bool
  tosEq : BitVec 8
  protocolEqPresent : Bool
  protocolEq : BitVec 8
  numIhlOffsetRange16 : Nat
  ihlOffsetRange16 : Slots RangeEq16
  numOffsetMeq32 : Nat
  offsetMeq32 : Slots MaskEq32
  tcEqPresent : Bool
  tcEq : BitVec 8
  flEqPresent : Bool
  flEq : BitVec 32
  ihlOffsetEq16Present : Bool
  ihlOffsetEq16 : Eq16
  ihlOffsetEq32Present : Bool
  ihlOffsetEq32 : Eq32
  numIhlOffsetMeq32 : Nat
  ihlOffsetMeq32 : Slots MaskEq32
  numOffsetMeq128 : Nat
  offsetMeq128 : Slots MaskEq128
  metadataMeq32Present : Bool
  metadataMeq32 : MaskEq32
  ipv4FragEqPresent : Bool
  deriving DecidableEq

def Eq16.cleared : Eq16 := ⟨0, 0⟩

def Eq32.cleared : Eq32 := ⟨0, 0⟩

def MaskEq32.cleared : MaskEq32 := ⟨0, 0, 0⟩

def MaskEq128.cleared : MaskEq128 := ⟨0, fun _ => 0, fun _ => 0⟩

def RangeEq16.cleared : RangeEq16 := ⟨0, 0, 0⟩

def RuleEq.cleared (ruleEqBitmap : BitVec 16) : RuleEq where
  ruleEqBitmap := ruleEqBitmap
  tosEqPresent := false
  tosEq := 0
  protocolEqPresent := false
  protocolEq := 0
  numIhlOffsetRange16 := 0
  ihlOffsetRange16 := ⟨.cleared, .cleared⟩
  numOffsetMeq32 := 0
  offsetMeq32 := ⟨.cleared, .cleared⟩
  tcEqPresent := false
  tcEq := 0
  flEqPresent := false
  flEq := 0
  ihlOffsetEq16Present := false
  ihlOffsetEq16 := .cleared
  ihlOffsetEq32Present := false
  ihlOffsetEq32 := .cleared
  numIhlOffsetMeq32 := 0
  ihlOffsetMeq32 := ⟨.cleared, .cleared⟩
  numOffsetMeq128 := 0
  offsetMeq128 := ⟨.cleared, .cleared⟩
  metadataMeq32Present := false
  metadataMeq32 := .cleared
  ipv4FragEqPresent := false

/-! ### What a description says -/

inductive Equation
  | pureAck
  | tos (value : BitVec 8)
  | protocol (value : BitVec 8)
  | tc (value : BitVec 8)
  | offsetMeq128 (eq : MaskEq128)
  | offsetMeq32 (eq : MaskEq32)
  | ihlOffsetMeq32 (eq : MaskEq32)
  | metadata (mask value : BitVec 32)
  | ihlOffsetRange16 (eq : RangeEq16)
  | ihlOffsetEq32 (eq : Eq32)
  | ihlOffsetEq16 (eq : Eq16)
  | fl (value : BitVec 32)
  | frag
  deriving DecidableEq

def onlyIf {α : Type} (present : Bool) (value : α) : List α := if present then [value] else []

namespace Slots

variable {α β : Type}

/-- The first `num` of the two. -/
def listed (slots : Slots α) (num : Nat) (mk : α → β) : List β :=
  onlyIf (decide (0 < num)) (mk slots.zero) ++ onlyIf (decide (1 < num)) (mk slots.one)

/-- The first `num` of the two, and nothing in the place of the others. -/
def kept (slots : Slots α) (num : Nat) (cleared : α) : Slots α where
  zero := if 0 < num then slots.zero else cleared
  one := if 1 < num then slots.one else cleared

end Slots

namespace RuleEq

variable (hw : HwType) (atrb : RuleEq)

def firstEquation : Equation :=
  if hw.isRuleEqValid .isPureAck then .pureAck else .tos atrb.tosEq

def equations : List Equation :=
  List.flatten [
    onlyIf atrb.tosEqPresent (atrb.firstEquation hw),
    onlyIf atrb.protocolEqPresent (.protocol atrb.protocolEq),
    onlyIf atrb.tcEqPresent (.tc atrb.tcEq),
    atrb.offsetMeq128.listed atrb.numOffsetMeq128 .offsetMeq128,
    atrb.offsetMeq32.listed atrb.numOffsetMeq32 .offsetMeq32,
    atrb.ihlOffsetMeq32.listed atrb.numIhlOffsetMeq32 .ihlOffsetMeq32,
    onlyIf atrb.metadataMeq32Present
      (.metadata atrb.metadataMeq32.mask atrb.metadataMeq32.value),
    atrb.ihlOffsetRange16.listed atrb.numIhlOffsetRange16 .ihlOffsetRange16,
    onlyIf atrb.ihlOffsetEq32Present (.ihlOffsetEq32 atrb.ihlOffsetEq32),
    onlyIf atrb.ihlOffsetEq16Present (.ihlOffsetEq16 atrb.ihlOffsetEq16),
    onlyIf atrb.flEqPresent (.fl atrb.flEq),
    onlyIf atrb.ipv4FragEqPresent .frag]

def enabled : List FltrtEquation :=
  List.flatten [
    onlyIf atrb.tosEqPresent hw.tosOrAck,
    onlyIf atrb.protocolEqPresent .protocolEq,
    onlyIf atrb.tcEqPresent .tcEq,
    onlyIf (decide (0 < atrb.numOffsetMeq128)) .offsetMeq128_0,
    onlyIf (decide (1 < atrb.numOffsetMeq128)) .offsetMeq128_1,
    onlyIf (decide (0 < atrb.numOffsetMeq32)) .offsetMeq32_0,
    onlyIf (decide (1 < atrb.numOffsetMeq32)) .offsetMeq32_1,
    onlyIf (decide (0 < atrb.numIhlOffsetMeq32)) .ihlOffsetMeq32_0,
    onlyIf (decide (1 < atrb.numIhlOffsetMeq32)) .ihlOffsetMeq32_1,
    onlyIf atrb.metadataMeq32Present .metadataCompare,
    onlyIf (decide (0 < atrb.numIhlOffsetRange16)) .ihlOffsetRange16_0,
    onlyIf (decide (1 < atrb.numIhlOffsetRange16)) .ihlOffsetRange16_1,
    onlyIf atrb.ihlOffsetEq32Present .ihlOffsetEq32,
    onlyIf atrb.ihlOffsetEq16Present .ihlOffsetEq16,
    onlyIf atrb.flEqPresent .flEq,
    onlyIf atrb.ipv4FragEqPresent .isFrag]

structure Agrees : Prop where
  bitmap : atrb.ruleEqBitmap = hw.bitmapOf (atrb.enabled hw)
  meq128 : atrb.numOffsetMeq128 ≤ 2
  meq32 : atrb.numOffsetMeq32 ≤ 2
  ihlMeq32 : atrb.numIhlOffsetMeq32 ≤ 2
  range16 : atrb.numIhlOffsetRange16 ≤ 2

def reduced : RuleEq where
  ruleEqBitmap := atrb.ruleEqBitmap
  tosEqPresent := atrb.tosEqPresent
  tosEq := if atrb.tosEqPresent && hw.isRuleEqValid .tosEq then atrb.tosEq else 0
  protocolEqPresent := atrb.protocolEqPresent
  protocolEq := if atrb.protocolEqPresent then atrb.protocolEq else 0
  numIhlOffsetRange16 := atrb.numIhlOffsetRange16
  ihlOffsetRange16 := atrb.ihlOffsetRange16.kept atrb.numIhlOffsetRange16 .cleared
  numOffsetMeq32 := atrb.numOffsetMeq32
  offsetMeq32 := atrb.offsetMeq32.kept atrb.numOffsetMeq32 .cleared
  tcEqPresent := atrb.tcEqPresent
  tcEq := if atrb.tcEqPresent then atrb.tcEq else 0
  flEqPresent := atrb.flEqPresent
  flEq := if atrb.flEqPresent then atrb.flEq &&& 0xFFFFF else 0
  ihlOffsetEq16Present := atrb.ihlOffsetEq16Present
  ihlOffsetEq16 := if atrb.ihlOffsetEq16Present then atrb.ihlOffsetEq16 else .cleared
  ihlOffsetEq32Present := atrb.ihlOffsetEq32Present
  ihlOffsetEq32 := if atrb.ihlOffsetEq32Present then atrb.ihlOffsetEq32 else .cleared
  numIhlOffsetMeq32 := atrb.numIhlOffsetMeq32
  ihlOffsetMeq32 := atrb.ihlOffsetMeq32.kept atrb.numIhlOffsetMeq32 .cleared
  numOffsetMeq128 := atrb.numOffsetMeq128
  offsetMeq128 := atrb.offsetMeq128.kept atrb.numOffsetMeq128 .cleared
  metadataMeq32Present := atrb.metadataMeq32Present
  metadataMeq32 := if atrb.metadataMeq32Present then { atrb.metadataMeq32 with offset := 0 }
    else .cleared
  ipv4FragEqPresent := atrb.ipv4FragEqPresent

end RuleEq

/-! ### The bytes -/

namespace Equation

open Words Cell

def extraCells : Equation → List Cell
  | .pureAck => [⟨0, 0⟩]
  | .tos value | .protocol value | .tc value => ofBytes [value]
  | .offsetMeq128 eq => ofBytes [eq.offset]
  | .offsetMeq32 eq | .ihlOffsetMeq32 eq => ofBytes [eq.offset]
  | .ihlOffsetRange16 eq => ofBytes [eq.offset]
  | .ihlOffsetEq32 eq => ofBytes [eq.offset]
  | .ihlOffsetEq16 eq => ofBytes [eq.offset]
  | .metadata _ _ | .fl _ | .frag => []

def lowHalf (operand : Fin 16 → BitVec 8) : List (BitVec 8) := (List.ofFn operand).take 8

def highHalf (operand : Fin 16 → BitVec 8) : List (BitVec 8) := (List.ofFn operand).drop 8

def restCells : Equation → List Cell
  | .offsetMeq128 eq =>
    ofBytes (lowHalf eq.mask ++ lowHalf eq.value ++ highHalf eq.mask ++ highHalf eq.value)
  | .offsetMeq32 eq | .ihlOffsetMeq32 eq => ofBytes (bytes32 eq.mask ++ bytes32 eq.value)
  | .metadata mask value => ofBytes (bytes32 mask ++ bytes32 value)
  | .ihlOffsetRange16 eq => ofBytes (bytes16 eq.rangeHigh ++ bytes16 eq.rangeLow)
  | .ihlOffsetEq32 eq => ofBytes (bytes32 eq.value)
  | .ihlOffsetEq16 eq => ofBytes (bytes16 eq.value) ++ [⟨0, 0⟩, ⟨0, 0⟩]
  | .fl value =>
    [full (byte value 0), full (byte value 1), ⟨0x0F, byte value 2 &&& 0x0F⟩, ⟨0, 0⟩]
  | .pureAck | .tos _ | .protocol _ | .tc _ | .frag => []

def extras (eqs : List Equation) : List Cell := eqs.flatMap extraCells

def rests (eqs : List Equation) : List Cell := eqs.flatMap restCells

variable {eqs more : List Equation}

@[simp] theorem extras_append : extras (eqs ++ more) = extras eqs ++ extras more :=
  List.flatMap_append

@[simp] theorem rests_append : rests (eqs ++ more) = rests eqs ++ rests more :=
  List.flatMap_append

@[simp] theorem extras_nil : extras [] = [] := rfl

@[simp] theorem rests_nil : rests [] = [] := rfl

@[simp] theorem extras_singleton (eq : Equation) : extras [eq] = eq.extraCells :=
  List.flatMap_singleton _ _

@[simp] theorem rests_singleton (eq : Equation) : rests [eq] = eq.restCells :=
  List.flatMap_singleton _ _

theorem fits_extraCells (eq : Equation) : ∀ cell ∈ eq.extraCells, cell.Fits := by
  cases eq with
  | pureAck =>
    intro cell member
    rw [List.mem_singleton.mp member]
    rfl
  | metadata => exact List.forall_mem_nil _
  | fl => exact List.forall_mem_nil _
  | frag => exact List.forall_mem_nil _
  | _ => exact fits_ofBytes

theorem fits_restCells (eq : Equation) : ∀ cell ∈ eq.restCells, cell.Fits := by
  cases eq with
  | ihlOffsetEq16 eq =>
    intro cell member
    rcases List.mem_append.mp member with written | unread
    · exact fits_ofBytes cell written
    · rcases List.mem_pair.mp unread with rfl | rfl <;> rfl
  | fl value =>
    intro cell member
    simp only [restCells, List.mem_cons, List.not_mem_nil, or_false] at member
    rcases member with rfl | rfl | rfl | rfl
    · exact BitVec.and_allOnes
    · exact BitVec.and_allOnes
    · exact (BitVec.and_assoc _ _ _).trans (congrArg _ BitVec.and_self)
    · rfl
  | pureAck => exact List.forall_mem_nil _
  | tos => exact List.forall_mem_nil _
  | protocol => exact List.forall_mem_nil _
  | tc => exact List.forall_mem_nil _
  | frag => exact List.forall_mem_nil _
  | _ => exact fits_ofBytes

theorem fits_extras (eqs : List Equation) : ∀ cell ∈ extras eqs, cell.Fits := by
  intro cell member
  obtain ⟨eq, -, within⟩ := List.mem_flatMap.mp member
  exact fits_extraCells eq cell within

theorem fits_rests (eqs : List Equation) : ∀ cell ∈ rests eqs, cell.Fits := by
  intro cell member
  obtain ⟨eq, -, within⟩ := List.mem_flatMap.mp member
  exact fits_restCells eq cell within

theorem length_restCells_mod (eq : Equation) : eq.restCells.length % 4 = 0 := by
  cases eq <;> simp [restCells, lowHalf, highHalf]

theorem length_rests_mod (eqs : List Equation) : (rests eqs).length % 4 = 0 := by
  induction eqs with
  | nil => rfl
  | cons eq eqs ih =>
    have first := length_restCells_mod eq
    rw [rests, List.flatMap_cons, List.length_append, ← rests]
    omega

end Equation

end VendorModules.Fltrt
