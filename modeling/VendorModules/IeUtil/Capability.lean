import Mathlib.Data.List.GetD
import VendorModules.Lib.Words

namespace VendorModules.IeUtil

open VendorModules.Lib

/-! Fields of the capability bytes of an information element: `wlan_iecap_set` and
`wlan_iecap_get`. -/

abbrev Bytes := List (BitVec 8)

def bitAt (iecap : Bytes) (k : Nat) : Bool := (iecap.getD (k / 8) 0).getLsbD (k % 8)

def qdfSetBits (var : BitVec 8) (index numBits : Nat) (val : BitVec 32) : BitVec 8 :=
  (BitField.set (var.setWidth 32) index numBits val).setWidth 8

def qdfGetBits (val : BitVec 8) (index numBits : Nat) : BitVec 32 :=
  BitField.get (val.setWidth 32) index numBits

def fitBits (bitPos totBits : Nat) : Nat := if 8 - bitPos < totBits then 8 - bitPos else totBits

def updateByte (iecap : Bytes) (byteCnt : Nat) (update : BitVec 8 → BitVec 8) : Option Bytes :=
  (iecap[byteCnt]?).map fun byte => iecap.set byteCnt (update byte)

/-- The loop of `wlan_iecap_set` and the last byte behind it. The first argument bounds the number
of rounds. -/
def iecapSetLoop (value : BitVec 32) : Nat → Bytes → Nat → Nat → Nat → Nat → Option Bytes
  | 0, _, _, _, _, _ => none
  | fuel + 1, iecap, byteCnt, bitPos, totBits, prevFitBits =>
    let fit := fitBits bitPos totBits
    if 8 < bitPos + totBits then
      (updateByte iecap byteCnt (qdfSetBits · bitPos fit value)).bind fun iecap =>
        if bitPos + fit = 8 then
          iecapSetLoop value fuel iecap (byteCnt + 1) 0 (totBits - fit) (prevFitBits + fit)
        else
          iecapSetLoop value fuel iecap byteCnt (bitPos + fit) (totBits - fit) (prevFitBits + fit)
    else updateByte iecap byteCnt (qdfSetBits · bitPos fit (value >>> prevFitBits))

/-- `wlan_iecap_set`; nothing if a byte is not in the array. -/
def iecapSet (iecap : Bytes) (bitPos totBits : Nat) (value : BitVec 32) : Option Bytes :=
  iecapSetLoop value (totBits + 1) iecap (bitPos / 8) (bitPos % 8) totBits 0

/-- The loop of `wlan_iecap_get` and what is behind it. -/
def iecapGetLoop (iecap : Bytes) :
    Nat → Nat → BitVec 8 → Nat → Nat → Nat → BitVec 32 → Option (BitVec 32)
  | 0, _, _, _, _, _, _ => none
  | fuel + 1, byteCnt, tempVal, bitPos, totBits, curBitPos, val =>
    let fit := fitBits bitPos totBits
    let val := val ||| qdfGetBits tempVal bitPos fit <<< curBitPos
    if 8 < totBits + bitPos then
      if bitPos + fit = 8 then
        (iecap[byteCnt + 1]?).bind fun tempVal =>
          iecapGetLoop iecap fuel (byteCnt + 1) tempVal 0 (totBits - fit) (curBitPos + fit) val
      else
        iecapGetLoop iecap fuel byteCnt tempVal (bitPos + fit) (totBits - fit) (curBitPos + fit)
          val
    else some val

/-- `wlan_iecap_get`. -/
def iecapGet (iecap : Bytes) (bitPos totBits : Nat) : Option (BitVec 32) :=
  (iecap[bitPos / 8]?).bind fun tempVal =>
    iecapGetLoop iecap (totBits + 1) (bitPos / 8) tempVal (bitPos % 8) totBits 0 0

section

variable {iecap out : Bytes} {byteCnt bitPos totBits prevFitBits : Nat} {value : BitVec 32}

theorem getLsbD_qdfSetBits (var : BitVec 8) {index numBits j : Nat} (val : BitVec 32)
    (inside : j < 8) :
    (qdfSetBits var index numBits val).getLsbD j =
      if index ≤ j ∧ j < index + numBits then val.getLsbD (j - index) else var.getLsbD j := by
  rw [qdfSetBits, BitVec.getLsbD_setWidth, BitField.getLsbD_set, BitVec.getLsbD_setWidth]
  have word : j < 32 := by omega
  simp [inside, word]

theorem getLsbD_qdfGetBits (val : BitVec 8) (index numBits j : Nat) :
    (qdfGetBits val index numBits).getLsbD j =
      (val.getLsbD (index + j) && decide (j < numBits)) := by
  rw [qdfGetBits, BitField.getLsbD_get, BitVec.getLsbD_setWidth]
  by_cases word : index + j < 32
  · simp [word]
  · have beyond : val.getLsbD (index + j) = false := BitVec.getLsbD_of_ge _ _ (by omega)
    simp [beyond]

theorem updateByte_eq_some (update : BitVec 8 → BitVec 8) (inside : byteCnt < iecap.length) :
    ∃ out, updateByte iecap byteCnt update = some out ∧ out.length = iecap.length ∧
      ∀ k, bitAt out k =
        if k / 8 = byteCnt then (update (iecap.getD byteCnt 0)).getLsbD (k % 8)
        else bitAt iecap k := by
  refine ⟨iecap.set byteCnt (update (iecap.getD byteCnt 0)), ?_, List.length_set, fun k => ?_⟩
  · rw [updateByte, List.getElem?_eq_getElem inside, List.getD_eq_getElem _ _ inside]
    rfl
  · rw [bitAt, bitAt]
    split
    · rename_i same
      rw [same, List.getD_eq_getElem _ _ (by rwa [List.length_set]), List.getElem_set_self]
    · rename_i other
      rw [List.getD_eq_getElem?_getD, List.getElem?_set_ne (Ne.symm other),
        ← List.getD_eq_getElem?_getD]

def written (value : BitVec 32) (prevFitBits first last k : Nat) : Bool :=
  if 8 * (k / 8 + 1) < last then value.getLsbD (k - max first (8 * (k / 8)))
  else value.getLsbD (prevFitBits + (k - first))

theorem iecapSetLoop_spec (fuel : Nat) (iecap : Bytes) (byteCnt bitPos totBits prevFitBits : Nat)
    (low : bitPos < 8) (rest : 0 < totBits) (enough : totBits < fuel)
    (inside : 8 * byteCnt + bitPos + totBits ≤ 8 * iecap.length) :
    ∃ out, iecapSetLoop value fuel iecap byteCnt bitPos totBits prevFitBits = some out ∧
      out.length = iecap.length ∧
      ∀ k, bitAt out k =
        if 8 * byteCnt + bitPos ≤ k ∧ k < 8 * byteCnt + bitPos + totBits then
          written value prevFitBits (8 * byteCnt + bitPos) (8 * byteCnt + bitPos + totBits) k
        else bitAt iecap k := by
  induction fuel generalizing iecap byteCnt bitPos totBits prevFitBits with
  | zero => exact absurd enough (Nat.not_lt_zero _)
  | succ fuel ih =>
    rw [iecapSetLoop]
    by_cases more : 8 < bitPos + totBits
    · have fit : fitBits bitPos totBits = 8 - bitPos := if_pos (by omega)
      have whole : bitPos + (8 - bitPos) = 8 := by omega
      rw [if_pos more, fit]
      obtain ⟨mid, taken, length, bits⟩ := updateByte_eq_some
        (qdfSetBits · bitPos (8 - bitPos) value) (by omega : byteCnt < iecap.length)
      rw [taken, Option.bind_some, if_pos whole]
      obtain ⟨out, ran, length', bits'⟩ := ih mid (byteCnt + 1) 0
        (totBits - (8 - bitPos)) (prevFitBits + (8 - bitPos)) (by omega) (by omega) (by omega) (by omega)
      refine ⟨out, ran, length'.trans length, fun k => ?_⟩
      rw [bits' k, bits k]
      by_cases here : k / 8 = byteCnt
      · have before : ¬(8 * (byteCnt + 1) + 0 ≤ k ∧
            k < 8 * (byteCnt + 1) + 0 + (totBits - (8 - bitPos))) := by omega
        rw [if_neg before, if_pos here, getLsbD_qdfSetBits _ _ (Nat.mod_lt _ (by decide))]
        by_cases field : 8 * byteCnt + bitPos ≤ k ∧ k < 8 * byteCnt + bitPos + totBits
        · have within : bitPos ≤ k % 8 ∧ k % 8 < bitPos + (8 - bitPos) := by omega
          have start : max (8 * byteCnt + bitPos) (8 * (k / 8)) = 8 * byteCnt + bitPos := by omega
          have same : k % 8 - bitPos = k - (8 * byteCnt + bitPos) := by omega
          rw [if_pos field, if_pos within, written, if_pos (by omega), start, same]
        · have outside : ¬(bitPos ≤ k % 8 ∧ k % 8 < bitPos + (8 - bitPos)) := by omega
          rw [if_neg field, if_neg outside, bitAt, here]
      · rw [if_neg here]
        have stop : 8 * (byteCnt + 1) + 0 + (totBits - (8 - bitPos)) =
            8 * byteCnt + bitPos + totBits := by omega
        rw [stop]
        by_cases later : 8 * (byteCnt + 1) + 0 ≤ k ∧ k < 8 * byteCnt + bitPos + totBits
        · have field : 8 * byteCnt + bitPos ≤ k ∧ k < 8 * byteCnt + bitPos + totBits := by omega
          have start : max (8 * (byteCnt + 1) + 0) (8 * (k / 8)) = 8 * (k / 8) := by omega
          have start' : max (8 * byteCnt + bitPos) (8 * (k / 8)) = 8 * (k / 8) := by omega
          have same : prevFitBits + (8 - bitPos) + (k - (8 * (byteCnt + 1) + 0)) =
              prevFitBits + (k - (8 * byteCnt + bitPos)) := by omega
          rw [if_pos later, if_pos field, written, written, start, start', same]
        · have outside : ¬(8 * byteCnt + bitPos ≤ k ∧ k < 8 * byteCnt + bitPos + totBits) := by
            omega
          rw [if_neg later, if_neg outside]
    · have fit : fitBits bitPos totBits = totBits := if_neg (by omega)
      rw [if_neg more, fit]
      obtain ⟨out, ran, length, bits⟩ := updateByte_eq_some
        (qdfSetBits · bitPos totBits (value >>> prevFitBits))
        (by omega : byteCnt < iecap.length)
      refine ⟨out, ran, length, fun k => ?_⟩
      rw [bits k]
      by_cases here : k / 8 = byteCnt
      · rw [if_pos here, getLsbD_qdfSetBits _ _ (Nat.mod_lt _ (by decide))]
        by_cases field : 8 * byteCnt + bitPos ≤ k ∧ k < 8 * byteCnt + bitPos + totBits
        · have within : bitPos ≤ k % 8 ∧ k % 8 < bitPos + totBits := by omega
          have same : k % 8 - bitPos = k - (8 * byteCnt + bitPos) := by omega
          rw [if_pos field, if_pos within, written, if_neg (by omega), BitVec.getLsbD_ushiftRight,
            same]
        · have outside : ¬(bitPos ≤ k % 8 ∧ k % 8 < bitPos + totBits) := by omega
          rw [if_neg field, if_neg outside, bitAt, here]
      · have outside : ¬(8 * byteCnt + bitPos ≤ k ∧ k < 8 * byteCnt + bitPos + totBits) := by omega
        rw [if_neg here, if_neg outside]

theorem iecapSet_spec (rest : 0 < totBits) (inside : bitPos + totBits ≤ 8 * iecap.length) :
    ∃ out, iecapSet iecap bitPos totBits value = some out ∧ out.length = iecap.length ∧
      ∀ k, bitAt out k =
        if bitPos ≤ k ∧ k < bitPos + totBits then written value 0 bitPos (bitPos + totBits) k
        else bitAt iecap k := by
  have place : 8 * (bitPos / 8) + bitPos % 8 = bitPos := Nat.div_add_mod bitPos 8
  have spec := @iecapSetLoop_spec value (totBits + 1) iecap (bitPos / 8) (bitPos % 8) totBits 0 (Nat.mod_lt bitPos (by decide)) rest (Nat.lt_succ_self _)
    (by rwa [place])
  rwa [place] at spec

theorem iecapGetLoop_spec (fuel byteCnt : Nat) (tempVal : BitVec 8)
    (bitPos totBits curBitPos : Nat) (val : BitVec 32) (low : bitPos < 8) (rest : 0 < totBits)
    (enough : totBits < fuel) (inside : 8 * byteCnt + bitPos + totBits ≤ 8 * iecap.length)
    (temp : tempVal = iecap.getD byteCnt 0) :
    ∃ got, iecapGetLoop iecap fuel byteCnt tempVal bitPos totBits curBitPos val = some got ∧
      ∀ i < 32, got.getLsbD i = (val.getLsbD i || (decide (curBitPos ≤ i ∧ i < curBitPos + totBits) &&
        bitAt iecap (8 * byteCnt + bitPos + (i - curBitPos)))) := by
  induction fuel generalizing byteCnt tempVal bitPos totBits curBitPos val with
  | zero => exact absurd enough (Nat.not_lt_zero _)
  | succ fuel ih =>
    rw [iecapGetLoop]
    have chunk (fit i : Nat) (word : i < 32) (near : fit ≤ 8 - bitPos) :
        (val ||| qdfGetBits tempVal bitPos fit <<< curBitPos).getLsbD i =
          (val.getLsbD i || (decide (curBitPos ≤ i ∧ i < curBitPos + fit) &&
            bitAt iecap (8 * byteCnt + bitPos + (i - curBitPos)))) := by
      rw [BitVec.getLsbD_or, BitVec.getLsbD_shiftLeft, getLsbD_qdfGetBits, temp]
      by_cases here : curBitPos ≤ i ∧ i < curBitPos + fit
      · have close : i - curBitPos < fit := by omega
        have late : ¬i < curBitPos := by omega
        have byte : (8 * byteCnt + bitPos + (i - curBitPos)) / 8 = byteCnt := by omega
        have bit : (8 * byteCnt + bitPos + (i - curBitPos)) % 8 = bitPos + (i - curBitPos) := by
          omega
        simp [word, here, late, close, bitAt, byte, bit]
      · by_cases early : i < curBitPos
        · simp [here, early]
        · have far : ¬i - curBitPos < fit := by omega
          simp [here, far]
    by_cases more : 8 < totBits + bitPos
    · have fit : fitBits bitPos totBits = 8 - bitPos := if_pos (by omega)
      have whole : bitPos + (8 - bitPos) = 8 := by omega
      have next : byteCnt + 1 < iecap.length := by omega
      rw [if_pos more, fit, if_pos whole, List.getElem?_eq_getElem next, Option.bind_some]
      obtain ⟨got, ran, bits⟩ := ih (byteCnt + 1) iecap[byteCnt + 1] 0
        (totBits - (8 - bitPos)) (curBitPos + (8 - bitPos))
        (val ||| qdfGetBits tempVal bitPos (8 - bitPos) <<< curBitPos)
        (by omega) (by omega) (by omega) (by omega) (List.getD_eq_getElem _ _ next).symm
      refine ⟨got, ran, fun i word => ?_⟩
      rw [bits i word, chunk _ i word le_rfl]
      by_cases first : curBitPos ≤ i ∧ i < curBitPos + (8 - bitPos)
      · have field : curBitPos ≤ i ∧ i < curBitPos + totBits := by omega
        have outside : ¬(curBitPos + (8 - bitPos) ≤ i ∧
            i < curBitPos + (8 - bitPos) + (totBits - (8 - bitPos))) := by omega
        rw [decide_eq_true first, decide_eq_true field, decide_eq_false outside, Bool.false_and,
          Bool.or_false]
      · have stop : curBitPos + (8 - bitPos) + (totBits - (8 - bitPos)) = curBitPos + totBits := by
          omega
        have after : (curBitPos + (8 - bitPos) ≤ i ∧ i < curBitPos + totBits) ↔
            (curBitPos ≤ i ∧ i < curBitPos + totBits) := by omega
        rw [decide_eq_false first, Bool.false_and, Bool.or_false, stop, decide_eq_decide.mpr after]
        by_cases field : curBitPos ≤ i ∧ i < curBitPos + totBits
        · have place : 8 * (byteCnt + 1) + 0 + (i - (curBitPos + (8 - bitPos))) =
              8 * byteCnt + bitPos + (i - curBitPos) := by omega
          rw [place]
        · simp [field]
    · have fit : fitBits bitPos totBits = totBits := if_neg (by omega)
      rw [if_neg more, fit]
      exact ⟨_, rfl, fun i word => chunk _ i word (by omega)⟩

theorem iecapGet_spec (rest : 0 < totBits) (inside : bitPos + totBits ≤ 8 * iecap.length) :
    ∃ got, iecapGet iecap bitPos totBits = some got ∧
      ∀ i < 32, got.getLsbD i = (decide (i < totBits) && bitAt iecap (bitPos + i)) := by
  have place : 8 * (bitPos / 8) + bitPos % 8 = bitPos := Nat.div_add_mod bitPos 8
  have first : bitPos / 8 < iecap.length := by omega
  obtain ⟨got, ran, bits⟩ := iecapGetLoop_spec (totBits + 1) (bitPos / 8) iecap[bitPos / 8]
    (bitPos % 8) totBits 0 0 (Nat.mod_lt bitPos (by decide)) rest (Nat.lt_succ_self _)
    (by rwa [place]) (List.getD_eq_getElem _ _ first).symm
  refine ⟨got, ?_, fun i word => ?_⟩
  · rw [iecapGet, List.getElem?_eq_getElem first]
    exact ran
  · rw [bits i word, place]
    simp

/-- In each byte of the field but the first and the last, the eight bits of the value that belong
there are its lowest ones. -/
def Repeats (bitPos totBits : Nat) (value : BitVec 32) : Prop :=
  ∀ byteCnt, bitPos / 8 < byteCnt → 8 * (byteCnt + 1) < bitPos + totBits →
    (value >>> (8 * byteCnt - bitPos)).setWidth 8 = value.setWidth 8

/-- What is set is what is got, and nothing else changes, exactly if the bytes in the middle of the
field have the lowest bits of the value. -/
theorem iecapGet_iecapSet_iff (rest : 0 < totBits) (word : totBits ≤ 32)
    (inside : bitPos + totBits ≤ 8 * iecap.length) (small : value.toNat < 2 ^ totBits) :
    ∃ out, iecapSet iecap bitPos totBits value = some out ∧ out.length = iecap.length ∧
      ((iecapGet out bitPos totBits = some value ∧
        ∀ k, ¬(bitPos ≤ k ∧ k < bitPos + totBits) → bitAt out k = bitAt iecap k) ↔
          Repeats bitPos totBits value) := by
  obtain ⟨out, set, length, bits⟩ := @iecapSet_spec iecap bitPos totBits value rest inside
  obtain ⟨got, get, gotBits⟩ := @iecapGet_spec out bitPos totBits rest (by rwa [length])
  refine ⟨out, set, length, ?_⟩
  have kept : ∀ k, ¬(bitPos ≤ k ∧ k < bitPos + totBits) → bitAt out k = bitAt iecap k :=
    fun k outside => by rw [bits k, if_neg outside]
  rw [and_iff_left kept, get, Option.some.injEq]
  have field (i : Nat) (near : i < totBits) :
      got.getLsbD i = written value 0 bitPos (bitPos + totBits) (bitPos + i) := by
    rw [gotBits i (by omega), bits, if_pos (by omega)]
    simp [near]
  constructor
  · rintro rfl byteCnt behind more
    apply BitVec.eq_of_getLsbD_eq
    intro j low
    have byte : (8 * byteCnt + j) / 8 = byteCnt := by omega
    have here := field (8 * byteCnt + j - bitPos) (by omega)
    have place : bitPos + (8 * byteCnt + j - bitPos) = 8 * byteCnt + j := by omega
    have start : 8 * byteCnt + j - max bitPos (8 * byteCnt) = j := by omega
    have same : 8 * byteCnt - bitPos + j = 8 * byteCnt + j - bitPos := by omega
    rw [place, written, byte, if_pos more, start] at here
    rw [BitVec.getLsbD_setWidth, BitVec.getLsbD_setWidth, BitVec.getLsbD_ushiftRight, same, here]
  · intro repeats
    apply BitVec.eq_of_getLsbD_eq
    intro i inWord
    by_cases near : i < totBits
    · rw [field i near, written]
      split
      · rename_i more
        by_cases first : (bitPos + i) / 8 = bitPos / 8
        · have start : bitPos + i - max bitPos (8 * ((bitPos + i) / 8)) = i := by omega
          rw [start]
        · have lane := congrArg (fun byte : BitVec 8 => byte.getLsbD ((bitPos + i) % 8))
            (repeats ((bitPos + i) / 8) (by omega) more)
          have low : (bitPos + i) % 8 < 8 := Nat.mod_lt _ (by decide)
          have start : bitPos + i - max bitPos (8 * ((bitPos + i) / 8)) = (bitPos + i) % 8 := by omega
          have same : 8 * ((bitPos + i) / 8) - bitPos + (bitPos + i) % 8 = i := by omega
          simp only [BitVec.getLsbD_setWidth, BitVec.getLsbD_ushiftRight, same, low, decide_true,
            Bool.true_and] at lane
          rw [start, lane]
      · rw [Nat.zero_add, Nat.add_sub_cancel_left]
    · have high : value.getLsbD i = false := by
        rw [BitVec.getLsbD, Nat.testBit_lt_two_pow]
        exact Nat.lt_of_lt_of_le small (Nat.pow_le_pow_right (by decide) (Nat.not_lt.mp near))
      rw [gotBits i inWord, high, decide_eq_false near, Bool.false_and]

end

theorem iecapGet_iecapSet_two_bytes : ∃ out, iecapSet [0, 0xFF] 4 12 0xABC = some out ∧
    out.length = 2 ∧ ((iecapGet out 4 12 = some 0xABC ∧
      ∀ k, ¬(4 ≤ k ∧ k < 4 + 12) → bitAt out k = bitAt [0, 0xFF] k) ↔ Repeats 4 12 0xABC) :=
  iecapGet_iecapSet_iff (by decide) (by decide) (by decide) (by decide)

/-- The byte in the middle is written with the lowest bits of the value once more. -/
theorem iecapGet_iecapSet_three_bytes :
    iecapSet [0, 0, 0] 0 24 0x010203 = some [0x03, 0x03, 0x01] ∧
      iecapGet [0x03, 0x03, 0x01] 0 24 ≠ some 0x010203 := by decide

end VendorModules.IeUtil
