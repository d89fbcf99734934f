import Mathlib.Data.BitVec
import Mathlib.Data.List.Basic

/-!
# UFCS payloads

The payload of a message is a union that the code converts in place between the byte order of
the wire and that of the CPU. The CPU is little-endian, so converting a field is reversing its
bytes where they lie; the power change entries are packed into three bytes each instead.
-/

namespace VendorModules.Ufcs

abbrev U8 := BitVec 8

abbrev U16 := BitVec 16

abbrev U32 := BitVec 32

abbrev Memory := Nat → U8

def outputModeMax : Nat := 7

def verifyRandomDataSize : Nat := 16

def verifyEncryptedDataSize : Nat := 32

inductive DataMsgType
  | outputCapabilities
  | request
  | sourceInfo
  | sinkInfo
  | cableInfo
  | deviceInfo
  | errorInfo
  | configWatchdog
  | refuse
  | verifyRequest
  | verifyResponse
  | powerChange
  | testRequest
  deriving Repr, DecidableEq

def DataMsgType.ofCommand (command : U8) : Option DataMsgType :=
  if command = 0x01#8 then some .outputCapabilities
  else if command = 0x02#8 then some .request
  else if command = 0x03#8 then some .sourceInfo
  else if command = 0x04#8 then some .sinkInfo
  else if command = 0x05#8 then some .cableInfo
  else if command = 0x06#8 then some .deviceInfo
  else if command = 0x07#8 then some .errorInfo
  else if command = 0x08#8 then some .configWatchdog
  else if command = 0x09#8 then some .refuse
  else if command = 0x0a#8 then some .verifyRequest
  else if command = 0x0b#8 then some .verifyResponse
  else if command = 0x0c#8 then some .powerChange
  else if command = 0xff#8 then some .testRequest
  else none

/-- Reverses the `width` bytes from `offset` on. -/
def reverseField (offset width : Nat) (mem : Memory) : Memory := fun i =>
  if offset ≤ i ∧ i < offset + width then mem (2 * offset + width - 1 - i) else mem i

/-- Converts `count` fields of `width` bytes that follow each other from `offset` on. -/
def reverseFields (offset width count : Nat) (mem : Memory) : Memory :=
  (List.range count).foldl (fun mem i => reverseField (offset + width * i) width mem) mem

def load32 (mem : Memory) (offset : Nat) : U32 :=
  mem (offset + 3) ++ mem (offset + 2) ++ mem (offset + 1) ++ mem offset

def store32 (mem : Memory) (offset : Nat) (value : U32) : Memory := fun i =>
  if i = offset then value.setWidth 8
  else if i = offset + 1 then (value >>> 8).setWidth 8
  else if i = offset + 2 then (value >>> 16).setWidth 8
  else if i = offset + 3 then (value >>> 24).setWidth 8
  else mem i

def recvDataMsgOutputCap (mem : Memory) : Memory := reverseFields 0 8 outputModeMax mem

def recvDataMsgRequest (mem : Memory) : Memory := reverseField 0 8 mem

def recvDataMsgSrcInfo (mem : Memory) : Memory := reverseField 0 8 mem

def recvDataMsgSinkInfo (mem : Memory) : Memory := reverseField 0 8 mem

def recvDataMsgCableInfo (mem : Memory) : Memory := reverseField 0 8 mem

def recvDataMsgDevInfo (mem : Memory) : Memory := reverseField 0 8 mem

def recvDataMsgErrInfo (mem : Memory) : Memory := reverseField 0 4 mem

def recvDataMsgConfigWd (mem : Memory) : Memory := reverseField 0 2 mem

def recvDataMsgRefuse (mem : Memory) : Memory := reverseField 0 4 mem

def recvOrPackDataMsgVerifyRequest (mem : Memory) : Memory :=
  reverseField 1 verifyRandomDataSize mem

def recvOrPackDataMsgVerifyResponse (mem : Memory) : Memory :=
  reverseField verifyEncryptedDataSize verifyRandomDataSize
    (reverseField 0 verifyEncryptedDataSize mem)

/-- The loop from entry `n` down to entry 1: three bytes from `buf[i]` on become entry `i`. -/
def recvPowerChangeLoop : Nat → Memory → Memory
  | 0, mem => mem
  | n + 1, mem =>
    let data : U32 := ((mem (n + 1)).setWidth 32 <<< 16) +
      ((mem (n + 2)).setWidth 32 <<< 8) + (mem (n + 3)).setWidth 32
    recvPowerChangeLoop n (store32 mem (4 * (n + 1)) data)

def recvDataMsgPowerChange (mem : Memory) : Memory :=
  recvPowerChangeLoop (outputModeMax - 1) mem

def recvDataMsgTestRequest (mem : Memory) : Memory := reverseField 0 2 mem

def packDataMsgOutputCap (mem : Memory) : Memory := reverseFields 0 8 outputModeMax mem

def packDataMsgRequest (mem : Memory) : Memory := reverseField 0 8 mem

def packDataMsgSrcInfo (mem : Memory) : Memory := reverseField 0 8 mem

def packDataMsgSinkInfo (mem : Memory) : Memory := reverseField 0 8 mem

def packDataMsgCableInfo (mem : Memory) : Memory := reverseField 0 8 mem

def packDataMsgDevInfo (mem : Memory) : Memory := reverseField 0 8 mem

def packDataMsgErrInfo (mem : Memory) : Memory := reverseField 0 4 mem

def packDataMsgConfigWd (mem : Memory) : Memory := reverseField 0 2 mem

def packDataMsgRefuse (mem : Memory) : Memory := reverseField 0 4 mem

/-- Entry `i` is stored in three bytes from `buf[i]` on, over the entries themselves. -/
def packPowerChangeEntry (mem : Memory) (i : Nat) : Memory :=
  let data := load32 mem (4 * i)
  fun j =>
    if j = i then ((data >>> 16) &&& 0xff#32).setWidth 8
    else if j = i + 1 then ((data >>> 8) &&& 0xff#32).setWidth 8
    else if j = i + 2 then (data &&& 0xff#32).setWidth 8
    else mem j

def packDataMsgPowerChange (mem : Memory) : Memory :=
  (List.range outputModeMax).foldl packPowerChangeEntry mem

def packDataMsgTestRequest (mem : Memory) : Memory := reverseField 0 2 mem

def dataMsgInit (command : U8) (mem : Memory) : Memory :=
  match DataMsgType.ofCommand command with
  | some .outputCapabilities => recvDataMsgOutputCap mem
  | some .request => recvDataMsgRequest mem
  | some .sourceInfo => recvDataMsgSrcInfo mem
  | some .sinkInfo => recvDataMsgSinkInfo mem
  | some .cableInfo => recvDataMsgCableInfo mem
  | some .deviceInfo => recvDataMsgDevInfo mem
  | some .errorInfo => recvDataMsgErrInfo mem
  | some .configWatchdog => recvDataMsgConfigWd mem
  | some .refuse => recvDataMsgRefuse mem
  | some .verifyRequest => recvOrPackDataMsgVerifyRequest mem
  | some .verifyResponse => recvOrPackDataMsgVerifyResponse mem
  | some .powerChange => recvDataMsgPowerChange mem
  | some .testRequest => recvDataMsgTestRequest mem
  | none => mem

def dataMsgPack (command : U8) (mem : Memory) : Memory :=
  match DataMsgType.ofCommand command with
  | some .outputCapabilities => packDataMsgOutputCap mem
  | some .request => packDataMsgRequest mem
  | some .sourceInfo => packDataMsgSrcInfo mem
  | some .sinkInfo => packDataMsgSinkInfo mem
  | some .cableInfo => packDataMsgCableInfo mem
  | some .deviceInfo => packDataMsgDevInfo mem
  | some .errorInfo => packDataMsgErrInfo mem
  | some .configWatchdog => packDataMsgConfigWd mem
  | some .refuse => packDataMsgRefuse mem
  | some .verifyRequest => recvOrPackDataMsgVerifyRequest mem
  | some .verifyResponse => recvOrPackDataMsgVerifyResponse mem
  | some .powerChange => packDataMsgPowerChange mem
  | some .testRequest => packDataMsgTestRequest mem
  | none => mem

/-! ## Where each byte comes from -/

/-- The place that changes with `i` when the fields of a payload are reversed. -/
def mirror : Option DataMsgType → Nat → Nat
  | some .outputCapabilities, i => if i < 56 then 8 * (i / 8) + (7 - i % 8) else i
  | some .request, i | some .sourceInfo, i | some .sinkInfo, i | some .cableInfo, i
  | some .deviceInfo, i => if i < 8 then 7 - i else i
  | some .errorInfo, i | some .refuse, i => if i < 4 then 3 - i else i
  | some .configWatchdog, i | some .testRequest, i => if i < 2 then 1 - i else i
  | some .verifyRequest, i => if 1 ≤ i ∧ i < 17 then 17 - i else i
  | some .verifyResponse, i => if i < 32 then 31 - i else if i < 48 then 79 - i else i
  | some .powerChange, i | none, i => i

/-- The byte that packing the power change entries brings to place `i`. -/
def packedFrom (i : Nat) : Nat :=
  if i < 7 then 4 * i + 2 else if i = 7 then 25 else if i = 8 then 24 else i

theorem mirror_mirror (type : Option DataMsgType) (i : Nat) :
    mirror type (mirror type i) = i := by
  cases type with
  | none => rfl
  | some type =>
    cases type <;> simp only [mirror] <;> grind

theorem reverseFields_apply (offset width count : Nat) (mem : Memory) (i : Nat)
    (positive : 0 < width) :
    reverseFields offset width count mem i =
      if offset ≤ i ∧ i < offset + width * count then
        mem (offset + width * ((i - offset) / width) + (width - 1 - (i - offset) % width))
      else mem i := by
  induction count generalizing i with
  | zero =>
    have outside : ¬(offset ≤ i ∧ i < offset + width * 0) := by omega
    rw [if_neg outside]
    rfl
  | succ count ih =>
    have unrolled : reverseFields offset width (count + 1) mem =
        reverseField (offset + width * count) width (reverseFields offset width count mem) := by
      simp [reverseFields, List.range_succ]
    have last : width * (count + 1) = width * count + width := Nat.mul_succ width count
    rw [unrolled, reverseField]
    split_ifs with inside covered covered
    · -- the last field: earlier fields end before it
      obtain ⟨low, high⟩ := inside
      rw [ih, if_neg (by omega)]
      have split : i - offset = width * count + (i - offset - width * count) := by omega
      have quotient : (i - offset) / width = count := by
        rw [split, Nat.mul_add_div positive, Nat.div_eq_of_lt (by omega), Nat.add_zero]
      have remainder : (i - offset) % width = i - offset - width * count := by
        rw [split, Nat.mul_add_mod, Nat.mod_eq_of_lt (by omega)]
        omega
      rw [quotient, remainder]
      congr 1
      omega
    · omega
    · rw [ih, if_pos (by omega)]
    · rw [ih, if_neg (by omega)]

theorem dataMsgPack_apply {command : U8}
    (other : DataMsgType.ofCommand command ≠ some .powerChange) (mem : Memory) (i : Nat) :
    dataMsgPack command mem i = mem (mirror (DataMsgType.ofCommand command) i) := by
  unfold dataMsgPack
  cases type : DataMsgType.ofCommand command with
  | none => rfl
  | some type' =>
    cases type' <;> simp only [mirror]
    case outputCapabilities =>
      rw [packDataMsgOutputCap, reverseFields_apply _ _ _ _ _ (by decide)]
      simp only [outputModeMax, Nat.zero_le, true_and, Nat.zero_add, Nat.sub_zero]
      split_ifs <;> rfl
    case verifyResponse =>
      simp only [recvOrPackDataMsgVerifyResponse, reverseField, verifyEncryptedDataSize,
        verifyRandomDataSize]
      grind
    case powerChange => exact absurd type other
    all_goals
      simp only [packDataMsgRequest, packDataMsgSrcInfo, packDataMsgSinkInfo,
        packDataMsgCableInfo, packDataMsgDevInfo, packDataMsgErrInfo, packDataMsgConfigWd,
        packDataMsgRefuse, packDataMsgTestRequest, recvOrPackDataMsgVerifyRequest,
        verifyRandomDataSize, reverseField]
      grind

theorem load32_toNat (mem : Memory) (offset : Nat) :
    (load32 mem offset).toNat =
      (((mem (offset + 3)).toNat * 256 + (mem (offset + 2)).toNat) * 256 +
        (mem (offset + 1)).toNat) * 256 + (mem offset).toNat := by
  rw [load32, BitVec.toNat_append, BitVec.toNat_append, BitVec.toNat_append,
    ← Nat.shiftLeft_add_eq_or_of_lt (mem offset).isLt,
    ← Nat.shiftLeft_add_eq_or_of_lt (mem (offset + 1)).isLt,
    ← Nat.shiftLeft_add_eq_or_of_lt (mem (offset + 2)).isLt]
  simp only [Nat.shiftLeft_eq]

theorem lowByte_toNat (value : U32) :
    ((value &&& 0xff#32).setWidth 8).toNat = value.toNat % 256 := by
  rw [BitVec.toNat_setWidth, BitVec.toNat_and]
  have mask : (0xff#32).toNat = 2 ^ 8 - 1 := rfl
  rw [mask, Nat.and_two_pow_sub_one_eq_mod, Nat.mod_mod]

theorem load32_byte (mem : Memory) (offset : Nat) :
    ((load32 mem offset >>> 16) &&& 0xff#32).setWidth 8 = mem (offset + 2) ∧
    ((load32 mem offset >>> 8) &&& 0xff#32).setWidth 8 = mem (offset + 1) ∧
    (load32 mem offset &&& 0xff#32).setWidth 8 = mem offset := by
  have b0 := (mem offset).isLt
  have b1 := (mem (offset + 1)).isLt
  have b2 := (mem (offset + 2)).isLt
  have b3 := (mem (offset + 3)).isLt
  refine ⟨?_, ?_, ?_⟩
  all_goals
    apply BitVec.eq_of_toNat_eq
    simp only [lowByte_toNat, BitVec.toNat_ushiftRight, load32_toNat, Nat.shiftRight_eq_div_pow]
    omega

theorem entry_bytes (high middle low : U8) (value : U32)
    (sum : value = (high.setWidth 32 <<< 16) + (middle.setWidth 32 <<< 8) + low.setWidth 32) :
    value.setWidth 8 = low ∧ (value >>> 8).setWidth 8 = middle ∧
      (value >>> 16).setWidth 8 = high ∧ (value >>> 24).setWidth 8 = 0#8 := by
  have h := high.isLt
  have m := middle.isLt
  have l := low.isLt
  have number : value.toNat = high.toNat * 65536 + middle.toNat * 256 + low.toNat := by
    simp only [sum, BitVec.toNat_add, BitVec.toNat_shiftLeft, BitVec.toNat_setWidth,
      Nat.shiftLeft_eq]
    omega
  refine ⟨?_, ?_, ?_, ?_⟩
  all_goals
    apply BitVec.eq_of_toNat_eq
    simp only [BitVec.toNat_setWidth, BitVec.toNat_ushiftRight, number,
      Nat.shiftRight_eq_div_pow, BitVec.toNat_ofNat]
    omega
/-- What `n` entries of the loop have done: an entry is still untouched when it is read. -/
theorem packPowerChange_prefix (mem : Memory) (n i : Nat) :
    (List.range n).foldl packPowerChangeEntry mem i =
      mem (if i < n then 4 * i + 2 else if 0 < n ∧ i = n then 4 * (n - 1) + 1
        else if 0 < n ∧ i = n + 1 then 4 * (n - 1) else i) := by
  induction n generalizing i with
  | zero => simp
  | succ n ih =>
    rw [List.range_succ, List.foldl_append, List.foldl_cons, List.foldl_nil]
    generalize (List.range n).foldl packPowerChangeEntry mem = done at ih
    obtain ⟨high, middle, low⟩ := load32_byte done (4 * n)
    simp only [packPowerChangeEntry, high, middle, low, ih]
    split_ifs <;> congr 1 <;> omega

theorem packDataMsgPowerChange_apply (mem : Memory) (i : Nat) :
    packDataMsgPowerChange mem i = mem (packedFrom i) := by
  rw [packDataMsgPowerChange, packPowerChange_prefix]
  congr 1
  simp only [packedFrom, outputModeMax]
  grind

/-- The byte that receiving the power change entries brings to place `i`; the top byte of an
entry comes from nowhere. -/
def restoredFrom (i : Nat) : Option Nat :=
  if 4 ≤ i ∧ i < 28 then if i % 4 = 3 then none else some (i / 4 + (2 - i % 4)) else some i

theorem recvPowerChangeLoop_above (n : Nat) (mem : Memory) (i : Nat) (above : 4 * (n + 1) ≤ i) :
    recvPowerChangeLoop n mem i = mem i := by
  induction n generalizing mem with
  | zero => rfl
  | succ n ih =>
    rw [recvPowerChangeLoop, ih _ (by omega), store32]
    split_ifs <;> first | rfl | omega

theorem recvPowerChangeLoop_apply (n : Nat) (mem : Memory) (i : Nat) (inside : i < 4 * (n + 1)) :
    recvPowerChangeLoop n mem i =
      if 4 ≤ i then if i % 4 = 3 then 0#8 else mem (i / 4 + (2 - i % 4)) else mem i := by
  induction n generalizing mem i with
  | zero =>
    rw [if_neg (by omega)]
    rfl
  | succ n ih =>
    rw [recvPowerChangeLoop]
    obtain ⟨low, middle, high, top⟩ := entry_bytes (mem (n + 1)) (mem (n + 2)) (mem (n + 3)) _ rfl
    by_cases before : i < 4 * (n + 1)
    · -- an earlier place: what it is made of lies before the entry just stored
      rw [ih _ _ before]
      simp only [store32]
      split_ifs <;> first | rfl | omega
    · have entry : i / 4 = n + 1 := by omega
      rw [recvPowerChangeLoop_above n _ i (by omega), if_pos (by omega), entry, store32]
      simp only [low, middle, high, top]
      have place : i = 4 * (n + 1) + i % 4 := by omega
      have small : i % 4 < 4 := Nat.mod_lt i (by decide)
      generalize i % 4 = r at place small
      subst place
      match r, small with
      | 0, _ => simp
      | 1, _ => simp
      | 2, _ => simp
      | 3, _ => simp

theorem recvDataMsgPowerChange_apply (mem : Memory) (i : Nat) :
    recvDataMsgPowerChange mem i = ((restoredFrom i).map mem).getD 0#8 := by
  rw [recvDataMsgPowerChange, restoredFrom]
  by_cases inside : i < 28
  · rw [recvPowerChangeLoop_apply _ _ _ (by simpa [outputModeMax] using inside)]
    grind
  · rw [recvPowerChangeLoop_above _ _ _ (by simpa [outputModeMax] using inside)]
    grind

theorem dataMsgInit_eq_pack {command : U8}
    (other : DataMsgType.ofCommand command ≠ some .powerChange) (mem : Memory) :
    dataMsgInit command mem = dataMsgPack command mem := by
  unfold dataMsgInit dataMsgPack
  cases type : DataMsgType.ofCommand command with
  | none => rfl
  | some type' =>
    cases type'
    case powerChange => exact absurd type other
    all_goals rfl

end VendorModules.Ufcs
