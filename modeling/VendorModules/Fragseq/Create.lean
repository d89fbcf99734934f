import Mathlib
import VendorModules.Lib.Splice
import VendorModules.Lib.Units

namespace VendorModules.Fragseq

open Lib

inductive QdfStatus
  | eInval
  | eNullValue
  | eProto
  deriving DecidableEq, Repr

/-- How a call ends other than by success: with an error status, or by reading or
writing outside a buffer. -/
inductive Failure
  | status (status : QdfStatus)
  | outOfBounds
  deriving DecidableEq, Repr

abbrev Buffer := List UInt8

def load (buff : Buffer) (pos count : Nat) : Except Failure (List UInt8) :=
  readAt .outOfBounds buff pos count

def store (buff : Buffer) (bytes : List UInt8) (pos : Nat) : Except Failure Buffer :=
  writeAt .outOfBounds buff bytes pos

def loadByte (buff : Buffer) (pos : Nat) : Except Failure UInt8 :=
  readCell .outOfBounds buff pos

/-! What `wlan_get_elemunit_info` gives: a header of an identifier and a length, at
positions 0 and 1, and for an element with an ID extension that at position 2. -/

def elemunitHdrLen : Nat := 2

def elemunitMaxPayloadLen : Nat := 255

def elemunitIdextPos : Nat := 2

def elemidFragment : UInt8 := 242

def elemidExtnElem : UInt8 := 255

def elemunitFragId (isSubelem : Bool) (subelemFragId : UInt8) : UInt8 :=
  if isSubelem then subelemFragId else elemidFragment

def hasIdExt (isSubelem : Bool) (id : UInt8) : Bool :=
  !isSubelem && id == elemidExtnElem

structure CreationParams where
  expectedFragseqLen : Nat
  prepayloadLeadBytes : Nat
  numMaxsizeFrags : Nat
  smallerFragSize : Nat
  extraHdrBytes : Nat
  deriving DecidableEq, Repr

/-- The number of maximum-size fragments is a `uint32_t`. -/
def numMaxsizeFrags (idExt : Bool) (payloadLen : Nat) : Nat :=
  if idExt then (payloadLen + 1) / elemunitMaxPayloadLen % 2 ^ 32
  else payloadLen / elemunitMaxPayloadLen % 2 ^ 32

def smallerFragSize (idExt : Bool) (payloadLen : Nat) : Nat :=
  if idExt then (payloadLen - (elemunitMaxPayloadLen - 1)) % elemunitMaxPayloadLen
  else payloadLen % elemunitMaxPayloadLen

def extraHdrBytes (idExt : Bool) (payloadLen : Nat) : Nat :=
  (numMaxsizeFrags idExt payloadLen - 1) * elemunitHdrLen +
    if smallerFragSize idExt payloadLen = 0 then 0 else elemunitHdrLen

def prepayloadLeadBytes (idExt : Bool) : Nat :=
  if idExt then elemunitHdrLen + 1 else elemunitHdrLen

def fragseqCreationParams (isSubelem : Bool) (id : UInt8) (payloadLen : Nat) :
    Option CreationParams :=
  let idExt := hasIdExt isSubelem id
  if payloadLen ≤ (if idExt then elemunitMaxPayloadLen - 1 else elemunitMaxPayloadLen)
  then none
  else some
    { expectedFragseqLen :=
        prepayloadLeadBytes idExt + payloadLen + extraHdrBytes idExt payloadLen
      prepayloadLeadBytes := prepayloadLeadBytes idExt
      numMaxsizeFrags := numMaxsizeFrags idExt payloadLen
      smallerFragSize := smallerFragSize idExt payloadLen
      extraHdrBytes := extraHdrBytes idExt payloadLen }

structure CreateCall where
  inlineFrag : Bool
  isSubelem : Bool
  id : UInt8
  idext : UInt8
  subelemFragId : UInt8
  payloadBuff : Option Buffer
  payloadLen : Nat
  fragBuff : Option Buffer
  deriving Repr

namespace CreateCall

def fragId (call : CreateCall) : UInt8 :=
  elemunitFragId call.isSubelem call.subelemFragId

def idExt (call : CreateCall) : Bool := hasIdExt call.isSubelem call.id

def residualLen (call : CreateCall) (params : CreationParams) (source : Buffer)
    (src dst : Nat) : Nat :=
  if call.inlineFrag &&
      decide (params.prepayloadLeadBytes + call.payloadLen < source.length) then
    source.length - params.prepayloadLeadBytes - call.payloadLen -
      (if call.inlineFrag && decide (src < dst) then dst - src else 0)
  else 0

/-- Moves `count` bytes from `src` to `dst` and puts a fragment's header before them. -/
def placeFrag (call : CreateCall) (source dest : Buffer) (src dst count len : Nat) :
    Except Failure Buffer := do
  let bytes ← load (if call.inlineFrag then dest else source) src count
  let moved ← store dest bytes dst
  store moved [call.fragId, UInt8.ofNat len] (dst - elemunitHdrLen)

def placeSmallerFrag (call : CreateCall) (params : CreationParams)
    (source dest : Buffer) : Except Failure Buffer :=
  if params.smallerFragSize = 0 then
    .ok dest
  else
    let src := elemunitHdrLen + params.numMaxsizeFrags * elemunitMaxPayloadLen
    let dst := src + params.extraHdrBytes
    call.placeFrag source dest src dst
      (params.smallerFragSize + call.residualLen params source src dst)
      params.smallerFragSize

def placeMaxsizeFrags (call : CreateCall) (params : CreationParams) (source : Buffer) :
    (i extraRemaining : Nat) → (dest : Buffer) → Except Failure Buffer
  | 0, _, dest => .ok dest
  | 1, _, dest => .ok dest
  | i + 2, extraRemaining, dest => do
      let src := elemunitHdrLen + (i + 1) * elemunitMaxPayloadLen
      let dst := src + extraRemaining
      let residual :=
        if i + 2 = params.numMaxsizeFrags ∧ params.smallerFragSize = 0 then
          call.residualLen params source src dst
        else 0
      let placed ← call.placeFrag source dest src dst (elemunitMaxPayloadLen + residual)
        elemunitMaxPayloadLen
      call.placeMaxsizeFrags params source (i + 1) (extraRemaining - elemunitHdrLen) placed

def placeLead (call : CreateCall) (source dest : Buffer) : Except Failure Buffer := do
  let copied ←
    if call.inlineFrag then .ok dest
    else do
      let bytes ← load source elemunitHdrLen elemunitMaxPayloadLen
      store dest bytes elemunitHdrLen
  let headed ← store copied [call.id, UInt8.ofNat elemunitMaxPayloadLen] 0
  if call.idExt then store headed [call.idext] elemunitIdextPos else .ok headed

def writeFragseq (call : CreateCall) (params : CreationParams) (source dest : Buffer) :
    Except Failure (Nat × Buffer) := do
  let tail ← call.placeSmallerFrag params source dest
  -- the loop counter is a `uint16_t`
  let frags ← call.placeMaxsizeFrags params source (params.numMaxsizeFrags % 2 ^ 16)
    (if params.smallerFragSize = 0 then params.extraHdrBytes
      else params.extraHdrBytes - elemunitHdrLen) tail
  let out ← call.placeLead source frags
  .ok (params.expectedFragseqLen, out)

/-- `wlan_create_elemsubelem_fragseq`: the length of the sequence and the buffer that
holds it, the payload's own in the inline mode. -/
def createFragseq (call : CreateCall) : Except Failure (Nat × Buffer) :=
  match fragseqCreationParams call.isSubelem call.id call.payloadLen with
  | none => .error (.status .eInval)
  | some params =>
    match call.payloadBuff with
    | none => .error (.status .eNullValue)
    | some source =>
      if source.length = 0 then
        .error (.status .eInval)
      else if source.length < call.payloadLen then
        .error (.status .eInval)
      else if call.inlineFrag then
        if source.length < params.expectedFragseqLen then
          .error (.status .eInval)
        else
          call.writeFragseq params source source
      else
        match call.fragBuff with
        | none => .error (.status .eNullValue)
        | some dest =>
          if dest.length = 0 then
            .error (.status .eInval)
          else if dest.length < params.expectedFragseqLen then
            .error (.status .eInval)
          else
            call.writeFragseq params source dest

end CreateCall

end VendorModules.Fragseq
