import VendorModules.Fltrt.Rule

namespace VendorModules.Fltrt

open VendorModules.Lib
open Memory Words Cell

/-! How a rule body is written from a description, its offset bytes at one place and its other
operands at another. -/

/-- `ipa_pad_to_64`. -/
def padTo64 (pos : Nat) : List (BitVec 8) :=
  List.replicate (if pos % 8 ≠ 0 then 8 - pos % 8 else 0) 0

def ruleAlign (pos : Nat) : Nat := (pos + 7) / 8 * 8

theorem padTo64_eq (pos : Nat) : padTo64 pos = List.replicate (ruleAlign pos - pos) 0 := by
  rw [padTo64, ruleAlign]
  congr 1
  split_ifs <;> omega

structure Cursors where
  mem : Memory
  extra : Option Nat
  rest : Nat

namespace Cursors

variable (c : Cursors)

def writeExtra (bytes : List (BitVec 8)) : Cursors :=
  match c.extra with
  | none => c
  | some pos => { c with mem := c.mem.put pos bytes, extra := some (pos + bytes.length) }

def writeRest (bytes : List (BitVec 8)) : Cursors :=
  { c with mem := c.mem.put c.rest bytes, rest := c.rest + bytes.length }

def write8 (byte : BitVec 8) : Cursors := c.writeExtra [byte]

def write16 (value : BitVec 16) : Cursors := c.writeRest (bytes16 value)

def write32 (value : BitVec 32) : Cursors := c.writeRest (bytes32 value)

def writeMeq128 (eq : MaskEq128) : Cursors :=
  ((((c.write8 eq.offset).writeRest (Equation.lowHalf eq.mask)).writeRest
    (Equation.lowHalf eq.value)).writeRest (Equation.highHalf eq.mask)).writeRest
      (Equation.highHalf eq.value)

def writeMeq32 (eq : MaskEq32) : Cursors :=
  ((c.write8 eq.offset).write32 eq.mask).write32 eq.value

def writeRange16 (eq : RangeEq16) : Cursors :=
  ((c.write8 eq.offset).write16 eq.rangeHigh).write16 eq.rangeLow

def writeMetadata (eq : MaskEq32) : Cursors := (c.write32 eq.mask).write32 eq.value

def writeEq32 (eq : Eq32) : Cursors := (c.write8 eq.offset).write32 eq.value

def writeEq16 (eq : Eq16) : Cursors := ((c.write8 eq.offset).write16 eq.value).write16 0

def when (present : Bool) (step : Cursors → Cursors) : Cursors := if present then step c else c

def writeSlots {α : Type} (num : Nat) (slots : Slots α) (write : Cursors → α → Cursors) : Cursors :=
  (c.when (decide (0 < num)) (write · slots.zero)).when (decide (0 < num - 1)) (write · slots.one)

end Cursors

namespace RuleEq

variable (hw : HwType) (atrb : RuleEq)

def calcExtraWrdBytes : Nat :=
  (if atrb.tosEqPresent then 1 else 0) + (if atrb.protocolEqPresent then 1 else 0) +
    (if atrb.tcEqPresent then 1 else 0) + atrb.numOffsetMeq128 + atrb.numOffsetMeq32 +
    atrb.numIhlOffsetMeq32 + atrb.numIhlOffsetRange16 +
    (if atrb.ihlOffsetEq32Present then 1 else 0) + (if atrb.ihlOffsetEq16Present then 1 else 0)

def writeTos (c : Cursors) : Option Cursors :=
  if atrb.tosEqPresent then
    if hw.isRuleEqValid .isPureAck then some (c.write8 0)
    else if hw.isRuleEqValid .tosEq then some (c.write8 atrb.tosEq)
    else none
  else some c

def writeOperands (c : Cursors) : Option Cursors :=
  (atrb.writeTos hw c).map fun c =>
    let c := c.when atrb.protocolEqPresent (·.write8 atrb.protocolEq)
    let c := c.when atrb.tcEqPresent (·.write8 atrb.tcEq)
    let c := c.writeSlots atrb.numOffsetMeq128 atrb.offsetMeq128 Cursors.writeMeq128
    let c := c.writeSlots atrb.numOffsetMeq32 atrb.offsetMeq32 Cursors.writeMeq32
    let c := c.writeSlots atrb.numIhlOffsetMeq32 atrb.ihlOffsetMeq32 Cursors.writeMeq32
    let c := c.when atrb.metadataMeq32Present (·.writeMetadata atrb.metadataMeq32)
    let c := c.writeSlots atrb.numIhlOffsetRange16 atrb.ihlOffsetRange16 Cursors.writeRange16
    let c := c.when atrb.ihlOffsetEq32Present (·.writeEq32 atrb.ihlOffsetEq32)
    let c := c.when atrb.ihlOffsetEq16Present (·.writeEq16 atrb.ihlOffsetEq16)
    c.when atrb.flEqPresent (·.write32 (atrb.flEq &&& 0xFFFFF))

def writePadding (c : Cursors) : Cursors :=
  let c := match c.extra with
    | none => c
    | some pos => c.writeExtra (padTo64 pos)
  c.writeRest (padTo64 c.rest)

/-- `ipa_fltrt_generate_hw_rule_bdy_from_eq`: the memory with the body, and the end of the body. -/
def generateHwRuleBdyFromEq (mem : Memory) (buf : Nat) : Option (Memory × Nat) :=
  let extraBytes := atrb.calcExtraWrdBytes
  if 13 < extraBytes then none
  else
    let c : Cursors :=
      if 8 < extraBytes then ⟨mem, some buf, buf + 8 * 2⟩
      else if 0 < extraBytes then ⟨mem, some buf, buf + 8⟩
      else ⟨mem, none, buf⟩
    (atrb.writeOperands hw c).map fun c =>
      let c := writePadding c
      (c.mem, c.rest)

/-- `ipa_fltrt_generate_hw_rule_bdy_from_eq_5_5`. With an extension header two bytes of the first
word are taken. -/
def generateHwRuleBdyFromEq55 (mem : Memory) (buf : Nat) (extHdr : Bool) : Option (Memory × Nat) :=
  let extraBytes := atrb.calcExtraWrdBytes
  if 13 < extraBytes then none
  else
    let c : Cursors :=
      if 8 < extraBytes then ⟨mem, some buf, buf + 8 * 2 - extHdr.toNat * 2⟩
      else if 0 < extraBytes then
        if extHdr && decide (8 - 2 < extraBytes) then
          ⟨mem, some buf, buf + 8 * 2 - extHdr.toNat * 2⟩
        else ⟨mem, some buf, buf + 8 - extHdr.toNat * 2⟩
      else ⟨mem, if extHdr then some buf else none, buf - extHdr.toNat * 2 + extHdr.toNat * 8⟩
    (atrb.writeOperands hw c).map fun c =>
      let c := writePadding c
      (c.mem, c.rest)

end RuleEq

/-! ### What has been written -/

/-- The equations whose bytes are written, the extra bytes from `base` and the others from `start`
on. There is room for the extra bytes in between. -/
structure Cursors.Wrote (base start : Nat) (c : Cursors) (eqs : List Equation) : Prop where
  extraAt : c.extra = some (base + (Equation.extras eqs).length) ∨ start = base ∧ c.extra = none
  restAt : c.rest = start + (Equation.rests eqs).length
  fits : base + (Equation.extras eqs).length ≤ start
  extraHeld : Holds c.mem base (values (Equation.extras eqs))
  restHeld : Holds c.mem start (values (Equation.rests eqs))

namespace Cursors.Wrote

open Equation

variable {base start : Nat} {c : Cursors} {eqs all : List Equation}

theorem put_put (mem : Memory) (pos : Nat) (bytes more : List (BitVec 8)) :
    (mem.put pos bytes).put (pos + bytes.length) more = mem.put pos (bytes ++ more) := by
  induction bytes generalizing mem pos with
  | nil => rfl
  | cons byte bytes ih =>
    rw [List.cons_append, put, put, ← ih, List.length_cons, Nat.add_right_comm, Nat.add_assoc]

theorem writeRest_writeRest (c : Cursors) (bytes more : List (BitVec 8)) :
    (c.writeRest bytes).writeRest more = c.writeRest (bytes ++ more) := by
  simp only [writeRest, put_put, List.length_append, Nat.add_assoc]

theorem emit (wrote : c.Wrote base start eqs) (eq : Equation)
    (fits : base + (extras (eqs ++ [eq])).length ≤ start) :
    ((c.writeExtra (values eq.extraCells)).writeRest (values eq.restCells)).Wrote base start
      (eqs ++ [eq]) := by
  have extraHeld : Holds (c.writeExtra (values eq.extraCells)).mem base
      (values (extras (eqs ++ [eq]))) ∧
      ((c.writeExtra (values eq.extraCells)).extra =
        some (base + (extras (eqs ++ [eq])).length) ∨
          start = base ∧ (c.writeExtra (values eq.extraCells)).extra = none) ∧
      (c.writeExtra (values eq.extraCells)).rest = c.rest ∧
      Holds (c.writeExtra (values eq.extraCells)).mem start (values (rests eqs)) := by
    rw [extras_append, extras_singleton, List.length_append] at *
    unfold writeExtra
    rcases wrote.extraAt with there | ⟨noRoom, null⟩
    · rw [there]
      refine ⟨?_, Or.inl ?_, rfl, ?_⟩
      · have held := wrote.extraHeld.put_end (values eq.extraCells)
        rw [length_values] at held
        rw [values_append]
        exact held
      · simp only [length_values, Nat.add_assoc]
      · refine wrote.restHeld.put_apart (Or.inr ?_)
        rw [length_values]
        omega
    · rw [null]
      have nothing : eq.extraCells = [] := List.eq_nil_of_length_eq_zero (by omega)
      rw [nothing, List.append_nil]
      exact ⟨wrote.extraHeld, Or.inr ⟨noRoom, null⟩, rfl, wrote.restHeld⟩
  obtain ⟨extraHeld, extra, same, restHeld⟩ := extraHeld
  refine ⟨extra, ?_, fits, extraHeld.put_apart (Or.inl ?_), ?_⟩
  · simp only [writeRest, same, wrote.restAt, rests_append, rests_singleton, List.length_append,
      length_values, Nat.add_assoc]
  · rw [same, wrote.restAt, length_values]
    omega
  · have held := restHeld.put_end (values eq.restCells)
    rw [length_values, ← wrote.restAt, ← same] at held
    rw [rests_append, rests_singleton, values_append]
    exact held

theorem step (wrote : c.Wrote base start eqs) {present : Bool} {eq : Equation}
    {step : Cursors → Cursors}
    (emits : ∀ c : Cursors, step c =
      (c.writeExtra (values eq.extraCells)).writeRest (values eq.restCells))
    (fits : base + (extras (eqs ++ onlyIf present eq)).length ≤ start) :
    (c.when present step).Wrote base start (eqs ++ onlyIf present eq) := by
  cases present with
  | false =>
    rw [onlyIf, if_neg Bool.false_ne_true, List.append_nil]
    exact wrote
  | true =>
    change (step c).Wrote base start (eqs ++ [eq])
    rw [emits]
    exact wrote.emit eq fits

theorem slots {α : Type} (wrote : c.Wrote base start eqs) {num : Nat} {slots : Slots α}
    {write : Cursors → α → Cursors} {mk : α → Equation}
    (emits : ∀ (c : Cursors) value, write c value =
      (c.writeExtra (values (mk value).extraCells)).writeRest (values (mk value).restCells))
    (fits : base + (extras (eqs ++ slots.listed num mk)).length ≤ start) :
    (c.writeSlots num slots write).Wrote base start (eqs ++ slots.listed num mk) := by
  rw [Slots.listed, ← List.append_assoc] at fits ⊢
  have second : decide (0 < num - 1) = decide (1 < num) := decide_eq_decide.mpr (by omega)
  rw [writeSlots, second]
  refine (wrote.step (emits · slots.zero) ?_).step (emits · slots.one) fits
  rw [extras_append, List.length_append] at fits
  omega

theorem silent (wrote : c.Wrote base start eqs) {eq : Equation} (present : Bool)
    (noExtra : eq.extraCells = []) (noRest : eq.restCells = []) :
    c.Wrote base start (eqs ++ onlyIf present eq) := by
  have same : extras (eqs ++ onlyIf present eq) = extras eqs ∧
      rests (eqs ++ onlyIf present eq) = rests eqs := by
    cases present <;> simp [onlyIf, noExtra, noRest]
  obtain ⟨extraAt, restAt, fits, extraHeld, restHeld⟩ := wrote
  rw [← same.1] at extraAt fits extraHeld
  rw [← same.2] at restAt restHeld
  exact ⟨extraAt, restAt, fits, extraHeld, restHeld⟩

end Cursors.Wrote

namespace Cursors

open Equation

variable (c : Cursors)

theorem writeExtra_nil : c.writeExtra [] = c := by
  rcases c with ⟨mem, _ | pos, rest⟩ <;> rfl

theorem writeMeq128_eq (eq : MaskEq128) :
    c.writeMeq128 eq = (c.writeExtra (values (offsetMeq128 eq).extraCells)).writeRest
      (values (offsetMeq128 eq).restCells) := by
  simp only [writeMeq128, Wrote.writeRest_writeRest, extraCells, restCells, values_ofBytes, write8]

theorem writeMeq32_eq (eq : MaskEq32) :
    c.writeMeq32 eq = (c.writeExtra (values (offsetMeq32 eq).extraCells)).writeRest
      (values (offsetMeq32 eq).restCells) := by
  simp only [writeMeq32, write32, Wrote.writeRest_writeRest, extraCells, restCells, values_ofBytes,
    write8]

theorem writeRange16_eq (eq : RangeEq16) :
    c.writeRange16 eq = (c.writeExtra (values (ihlOffsetRange16 eq).extraCells)).writeRest
      (values (ihlOffsetRange16 eq).restCells) := by
  simp only [writeRange16, write16, Wrote.writeRest_writeRest, extraCells, restCells,
    values_ofBytes, write8]

theorem writeMetadata_eq (eq : MaskEq32) :
    c.writeMetadata eq = (c.writeExtra (values (metadata eq.mask eq.value).extraCells)).writeRest
      (values (metadata eq.mask eq.value).restCells) := by
  simp only [writeMetadata, write32, Wrote.writeRest_writeRest, extraCells, restCells,
    values_ofBytes]
  rw [show values [] = [] from rfl, writeExtra_nil]

theorem writeEq32_eq (eq : Eq32) :
    c.writeEq32 eq = (c.writeExtra (values (ihlOffsetEq32 eq).extraCells)).writeRest
      (values (ihlOffsetEq32 eq).restCells) := by
  simp only [writeEq32, write32, extraCells, restCells, values_ofBytes, write8]

theorem writeEq16_eq (eq : Eq16) :
    c.writeEq16 eq = (c.writeExtra (values (ihlOffsetEq16 eq).extraCells)).writeRest
      (values (ihlOffsetEq16 eq).restCells) := by
  simp only [writeEq16, write16, Wrote.writeRest_writeRest, extraCells, restCells, values_append,
    values_ofBytes, write8]
  rfl

theorem writeFl_eq (value : BitVec 32) :
    c.write32 (value &&& 0xFFFFF) = (c.writeExtra (values (fl value).extraCells)).writeRest
      (values (fl value).restCells) := by
  have bytes : values (fl value).restCells = bytes32 (value &&& 0xFFFFF) := by
    simp only [restCells, values, List.map_cons, List.map_nil, full, bytes32, byte,
      BitVec.extractLsb'_and]
    congr 1
    · exact BitVec.and_allOnes.symm
    · congr 1
      · exact BitVec.and_allOnes.symm
      · congr 2
        exact BitVec.and_zero.symm
  rw [bytes, show values (fl value).extraCells = [] from rfl, writeExtra_nil, write32]

end Cursors

namespace RuleEq

open Equation

variable {hw : HwType} {atrb : RuleEq} {base start : Nat} {c : Cursors}

theorem length_extras_onlyIf (present : Bool) (eq : Equation) :
    (extras (onlyIf present eq)).length = if present then eq.extraCells.length else 0 := by
  cases present <;> simp [onlyIf]

theorem length_extras_listed {α : Type} (slots : Slots α) (mk : α → Equation) {num : Nat}
    (one : ∀ value, (mk value).extraCells.length = 1) (small : num ≤ 2) :
    (extras (slots.listed num mk)).length = num := by
  rw [Slots.listed, extras_append, List.length_append, length_extras_onlyIf, length_extras_onlyIf,
    one, one]
  simp only [decide_eq_true_eq]
  split_ifs <;> omega

theorem length_extras (agrees : atrb.Agrees hw) :
    (extras (atrb.equations hw)).length = atrb.calcExtraWrdBytes := by
  have first : (atrb.firstEquation hw).extraCells.length = 1 := by
    rw [firstEquation]
    split <;> rfl
  have meq128 := length_extras_listed atrb.offsetMeq128 .offsetMeq128 (fun _ => rfl) agrees.meq128
  have meq32 := length_extras_listed atrb.offsetMeq32 .offsetMeq32 (fun _ => rfl) agrees.meq32
  have ihlMeq32 := length_extras_listed atrb.ihlOffsetMeq32 .ihlOffsetMeq32 (fun _ => rfl) agrees.ihlMeq32
  have range16 := length_extras_listed atrb.ihlOffsetRange16 .ihlOffsetRange16 (fun _ => rfl) agrees.range16
  simp only [equations, List.flatten_cons, List.flatten_nil, List.append_nil, extras_append,
    List.length_append, length_extras_onlyIf, meq128, meq32, ihlMeq32, range16, first,
    calcExtraWrdBytes]
  simp only [extraCells, length_ofBytes, List.length_singleton, List.length_nil, ite_self]
  omega

theorem writeTos_wrote (wrote : c.Wrote base start [])
    (fits : base + (extras (onlyIf atrb.tosEqPresent (atrb.firstEquation hw))).length ≤ start) :
    ∃ c', atrb.writeTos hw c = some c' ∧
      c'.Wrote base start (onlyIf atrb.tosEqPresent (atrb.firstEquation hw)) := by
  have stage : Cursors.Wrote base start (c.when atrb.tosEqPresent fun c =>
      (c.writeExtra (values (atrb.firstEquation hw).extraCells)).writeRest
        (values (atrb.firstEquation hw).restCells))
      ([] ++ onlyIf atrb.tosEqPresent (atrb.firstEquation hw)) :=
    wrote.step (fun c => rfl) (by rwa [List.nil_append])
  rw [List.nil_append] at stage
  refine ⟨_, ?_, stage⟩
  unfold writeTos Cursors.when
  cases atrb.tosEqPresent with
  | false => rfl
  | true =>
    rw [HwType.isRuleEqValid_tosEq]
    simp only [firstEquation, if_true]
    cases hw.isRuleEqValid .isPureAck <;> rfl

theorem writeOperands_wrote (wrote : c.Wrote base start [])
    (fits : base + (extras (atrb.equations hw)).length ≤ start) :
    ∃ c', atrb.writeOperands hw c = some c' ∧
      c'.Wrote base start (atrb.equations hw) := by
  have short {eqs : List Equation} (begins : eqs <+: atrb.equations hw) :
      base + (extras eqs).length ≤ start := by
    obtain ⟨more, whole⟩ := begins
    rw [← whole, extras_append, List.length_append] at fits
    omega
  have whole := RuleEq.equations.eq_1 hw atrb
  simp only [List.flatten_cons, List.flatten_nil, List.append_nil, ← List.append_assoc] at whole
  rw [whole] at short ⊢
  simp only [List.append_assoc] at short
  obtain ⟨first, written, wrote⟩ := writeTos_wrote wrote (short (List.prefix_append _ _))
  rw [writeOperands, written]
  refine ⟨_, rfl, Cursors.Wrote.silent ?_ _ rfl rfl⟩
  refine Cursors.Wrote.step ?_ (Cursors.writeFl_eq · atrb.flEq) (short ?_)
  refine Cursors.Wrote.step ?_ (Cursors.writeEq16_eq · atrb.ihlOffsetEq16) (short ?_)
  refine Cursors.Wrote.step ?_ (Cursors.writeEq32_eq · atrb.ihlOffsetEq32) (short ?_)
  refine Cursors.Wrote.slots ?_ Cursors.writeRange16_eq (short ?_)
  refine Cursors.Wrote.step ?_ (Cursors.writeMetadata_eq · atrb.metadataMeq32) (short ?_)
  refine Cursors.Wrote.slots ?_ Cursors.writeMeq32_eq (short ?_)
  refine Cursors.Wrote.slots ?_ Cursors.writeMeq32_eq (short ?_)
  refine Cursors.Wrote.slots ?_ Cursors.writeMeq128_eq (short ?_)
  refine Cursors.Wrote.step ?_ (fun c => rfl) (short ?_)
  refine Cursors.Wrote.step wrote (fun c => rfl) (short ?_)
  all_goals
    simp only [List.append_assoc, List.prefix_append_right_inj, List.prefix_append]

end RuleEq

/-! ### The body -/

/-- A rule body in memory: the extra bytes and the other operands of some equations, each filled
up with zeros. -/
structure Laid (mem : Memory) (base start stop : Nat) (eqs : List Equation) : Prop where
  start_eq : start = ruleAlign (base + (Equation.extras eqs).length)
  stop_eq : stop = ruleAlign (start + (Equation.rests eqs).length)
  extraHeld : Holds mem base (values (Equation.extras eqs) ++
    List.replicate (start - (base + (Equation.extras eqs).length)) 0)
  restHeld : Holds mem start (values (Equation.rests eqs) ++
    List.replicate (stop - (start + (Equation.rests eqs).length)) 0)

namespace RuleEq

open Equation

variable {hw : HwType} {atrb : RuleEq} {base start : Nat} {c : Cursors}
  {eqs : List Equation}

theorem writePadding_laid (wrote : c.Wrote base start eqs)
    (start_eq : start = ruleAlign (base + (extras eqs).length)) :
    Laid (writePadding c).mem base start (writePadding c).rest eqs := by
  have filled : Holds (match c.extra with | none => c | some pos => c.writeExtra (padTo64 pos)).mem
      base (values (extras eqs) ++
        List.replicate (start - (base + (extras eqs).length)) 0) ∧
      Holds (match c.extra with | none => c | some pos => c.writeExtra (padTo64 pos)).mem
        start (values (rests eqs)) ∧
      (match c.extra with | none => c | some pos => c.writeExtra (padTo64 pos)).rest = c.rest := by
    have fits := wrote.fits
    rcases wrote.extraAt with there | ⟨noRoom, null⟩
    · rw [there]
      dsimp only
      rw [padTo64_eq, Cursors.writeExtra, there, ← start_eq]
      refine ⟨?_, wrote.restHeld.put_apart (Or.inr ?_), rfl⟩
      · have held := wrote.extraHeld.put_end
          (List.replicate (start - (base + (extras eqs).length)) 0)
        rwa [length_values] at held
      · rw [List.length_replicate]
        omega
    · rw [null]
      have flush : start - (base + (extras eqs).length) = 0 := by omega
      rw [flush, List.replicate_zero, List.append_nil]
      exact ⟨wrote.extraHeld, wrote.restHeld, rfl⟩
  unfold writePadding
  generalize (match c.extra with | none => c | some pos => c.writeExtra (padTo64 pos)) = d at *
  obtain ⟨extraHeld, restHeld, same⟩ := filled
  have stop : (d.writeRest (padTo64 d.rest)).rest = ruleAlign (start + (rests eqs).length) := by
    rw [Cursors.writeRest, padTo64_eq, List.length_replicate, same, wrote.restAt]
    have past : start + (rests eqs).length ≤ ruleAlign (start + (rests eqs).length) := by
      rw [ruleAlign]
      omega
    exact Nat.add_sub_cancel' past
  refine ⟨start_eq, stop, ?_, ?_⟩
  · refine extraHeld.put_apart (Or.inl ?_)
    rw [List.length_append, length_values, List.length_replicate, same, wrote.restAt]
    have fits := wrote.fits
    omega
  · have held := restHeld.put_end (padTo64 d.rest)
    rw [length_values, ← wrote.restAt, ← same, padTo64_eq] at held
    rw [stop]
    rw [same, wrote.restAt] at held
    rw [Cursors.writeRest, padTo64_eq, same, wrote.restAt]
    exact held

/-- The body is written from `base` on. -/
def Writes (result : Option (Memory × Nat)) (base : Nat) (eqs : List Equation) : Prop :=
  ∃ mem stop, result = some (mem, stop) ∧
    Laid mem base (ruleAlign (base + (extras eqs).length)) stop eqs

theorem calcExtraWrdBytes_le (agrees : atrb.Agrees hw) : atrb.calcExtraWrdBytes ≤ 13 := by
  obtain ⟨-, meq128, meq32, ihlMeq32, range16⟩ := agrees
  unfold calcExtraWrdBytes
  split_ifs <;> omega

theorem writes_of_start {mem : Memory} {buf : Nat} {extra : Option Nat}
    (start_eq : start = ruleAlign (buf + (extras (atrb.equations hw)).length))
    (there : extra = some buf ∨ start = buf ∧ extra = none) :
    Writes ((atrb.writeOperands hw ⟨mem, extra, start⟩).map fun c =>
      ((writePadding c).mem, (writePadding c).rest)) buf (atrb.equations hw) := by
  have nothing : Cursors.Wrote buf start ⟨mem, extra, start⟩ [] := by
    refine ⟨there, rfl, ?_, fun i inside => absurd inside (Nat.not_lt_zero i),
      fun i inside => absurd inside (Nat.not_lt_zero i)⟩
    rw [start_eq, ruleAlign]
    dsimp only [extras_nil, List.length_nil]
    omega
  have fits : buf + (extras (atrb.equations hw)).length ≤ start := by
    rw [start_eq, ruleAlign]
    omega
  obtain ⟨c, written, wrote⟩ := writeOperands_wrote nothing fits
  rw [written]
  refine ⟨_, _, rfl, ?_⟩
  rw [← start_eq]
  exact writePadding_laid wrote start_eq

theorem generateHwRuleBdyFromEq_writes (agrees : atrb.Agrees hw) (mem : Memory) {buf : Nat}
    (aligned : buf % 8 = 0) :
    Writes (atrb.generateHwRuleBdyFromEq hw mem buf) buf (atrb.equations hw) := by
  have few := calcExtraWrdBytes_le agrees
  have length := length_extras agrees
  unfold generateHwRuleBdyFromEq
  dsimp only
  rw [if_neg (Nat.not_lt.mpr few)]
  split
  · refine writes_of_start ?_ (Or.inl rfl)
    rw [length, ruleAlign]
    omega
  · split
    · refine writes_of_start ?_ (Or.inl rfl)
      rw [length, ruleAlign]
      omega
    · refine writes_of_start ?_ (Or.inr ⟨rfl, rfl⟩)
      rw [length, ruleAlign]
      omega

theorem generateHwRuleBdyFromEq55_writes (agrees : atrb.Agrees hw) (mem : Memory) {buf : Nat}
    {extHdr : Bool} (aligned : buf % 8 = extHdr.toNat * 2) :
    Writes (atrb.generateHwRuleBdyFromEq55 hw mem buf extHdr) buf (atrb.equations hw) := by
  have few := calcExtraWrdBytes_le agrees
  have length := length_extras agrees
  unfold generateHwRuleBdyFromEq55
  dsimp only
  rw [if_neg (Nat.not_lt.mpr few)]
  have taken : extHdr.toNat ≤ 1 := Bool.toNat_le extHdr
  split
  · refine writes_of_start ?_ (Or.inl rfl)
    rw [length, ruleAlign]
    omega
  · split
    · split
      · rename_i second
        obtain ⟨ext, more⟩ := (Bool.and_eq_true _ _).mp second
        rw [decide_eq_true_eq] at more
        rw [ext] at aligned ⊢
        refine writes_of_start ?_ (Or.inl rfl)
        rw [length, ruleAlign]
        simp only [Bool.toNat_true] at aligned ⊢
        omega
      · rename_i second
        refine writes_of_start ?_ (Or.inl rfl)
        rw [length, ruleAlign]
        cases extHdr <;> simp at aligned second ⊢ <;> omega
    · cases extHdr with
      | false =>
        refine writes_of_start ?_ (Or.inr ⟨rfl, rfl⟩)
        rw [length, ruleAlign]
        simp only [Bool.toNat_false] at aligned ⊢
        omega
      | true =>
        refine writes_of_start ?_ (Or.inl rfl)
        rw [length, ruleAlign]
        simp only [Bool.toNat_true] at aligned ⊢
        omega

end RuleEq

end VendorModules.Fltrt
