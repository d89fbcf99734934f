import VendorModules.Ufcs.Payload

/-!
# UFCS messages on the wire

A frame is a two byte head, the body of a control, data or vendor message and, where the
configuration checks it, a CRC byte. Packing converts the payload of a data message inside the
message itself, so it returns the message as well as the frame.
-/

namespace VendorModules.Ufcs

def msgHeadSize : Nat := 2

def msgDataIndex : Nat := 2

def msgSizeMax : Nat := 64

def dataMsgDataSizeMax : Nat := 59

def vendorMsgDataSizeMax : Nat := 58

def msgHeadTypeMask : U16 := 0x7#16

def msgHeadVerMask : U16 := 0x1f8#16

def msgHeadIndexMask : U16 := 0x1e00#16

def msgHeadAddrMask : U16 := 0xe000#16

def msgHeadTypeIndex : Nat := 0

def msgHeadVerIndex : Nat := 3

def msgHeadIndexIndex : Nat := 9

def msgHeadAddrIndex : Nat := 13

inductive Body
  | ctrl (command : U8)
  | data (command length : U8) (data : Memory)
  | vendor (vndId : U16) (length : U8) (data : Memory)

def Body.type : Body → U8
  | .ctrl _ => 0#8
  | .data .. => 1#8
  | .vendor .. => 2#8

structure Msg where
  version : U8
  index : U8
  addr : U8
  body : Body
  crc : U8 := 0
  crcGood : U8 := 0

structure Config where
  checkCrc : Bool
  msgResend : Bool
  deriving Repr, DecidableEq

inductive Errno
  | inval
  | notSupp
  deriving Repr, DecidableEq

def crc8Update (crc byte : U8) : U8 :=
  (fun crc => if crc &&& 0x80#8 ≠ 0 then (crc <<< 1) ^^^ 0x29#8 else crc <<< 1)^[8] (crc ^^^ byte)

/-- The size is an `unsigned char`. -/
def crc8Calculate (data : List U8) (size : Nat) : U8 :=
  (data.take (size % 256)).foldl crc8Update 0

def isSupportedOplusCtrlMsg (data : Memory) : Bool :=
  data 0 = 0x01#8 || data 0 = 0x03#8

def recvOplusDataMsgEmarkInfo (data : Memory) : Memory := reverseField 1 8 data

def recvDataMsgPowerInfoExt (data : Memory) : Memory := reverseFields 1 8 7 data

def oplusDataMsgInit (data : Memory) : Memory :=
  if data 0 = 0x02#8 then recvOplusDataMsgEmarkInfo data
  else if data 0 = 0x04#8 then recvDataMsgPowerInfoExt data
  else data

def Config.msgSize (config : Config) : Nat :=
  if config.checkCrc then msgHeadSize + 2 else msgHeadSize + 1

def packHead (msg : Msg) : U16 :=
  ((msg.addr.setWidth 16 <<< msgHeadAddrIndex) &&& msgHeadAddrMask) |||
  ((msg.index.setWidth 16 <<< msgHeadIndexIndex) &&& msgHeadIndexMask) |||
  ((msg.version.setWidth 16 <<< msgHeadVerIndex) &&& msgHeadVerMask) |||
  ((msg.body.type.setWidth 16 <<< msgHeadTypeIndex) &&& msgHeadTypeMask)

def cpuToBe16 (value : U16) : List U8 := [(value >>> 8).setWidth 8, value.setWidth 8]

def be16ToCpu (high low : U8) : U16 := (high.setWidth 16 <<< 8) ||| low.setWidth 16

/-- `memcpy` of the first `length` bytes of a payload into the frame. -/
def payloadBytes (data : Memory) (length : U8) : List U8 := (List.range length.toNat).map data

/-- `memcpy` out of the frame into a message that was allocated as zeros. -/
def copyPayload (buf : List U8) (offset : Nat) (length : U8) : Memory := fun i =>
  if i < length.toNat then buf.getD (offset + i) 0 else 0

def packBody (config : Config) (len : Nat) : Body → Except Errno (List U8 × Body)
  | .ctrl command => .ok ([command], .ctrl command)
  | .data command length data =>
    if len < config.msgSize + (2 + length.toNat) then .error .inval
    else
      let data := dataMsgPack command data
      .ok (command :: length :: payloadBytes data length, .data command length data)
  | .vendor vndId length data =>
    if ¬isSupportedOplusCtrlMsg data then .error .notSupp
    else if len < config.msgSize + (3 + length.toNat) then .error .inval
    else
      .ok (cpuToBe16 vndId ++ length :: payloadBytes data length, .vendor vndId length data)

/-- The frame written into a buffer of `len` bytes, and the message afterwards. -/
def packMsg (config : Config) (msg : Msg) (len : Nat) : Except Errno (List U8 × Msg) :=
  if len < config.msgSize then .error .inval
  else
    match packBody config len msg.body with
    | .error errno => .error errno
    | .ok (bytes, body) =>
      let content := cpuToBe16 (packHead msg) ++ bytes
      let sealed :=
        if config.checkCrc then content ++ [crc8Calculate content content.length] else content
      .ok (sealed, { msg with body := body })

structure Unpacked where
  body : Body
  crc : U8
  computed : U8

def unpackCtrl (config : Config) (buf : List U8) : Option Unpacked :=
  some
    { body := .ctrl (buf.getD msgDataIndex 0)
      crc := if config.checkCrc then buf.getD (msgDataIndex + 1) 0 else 0
      computed := crc8Calculate buf (msgDataIndex + 1) }

def unpackData (config : Config) (buf : List U8) : Option Unpacked :=
  let command := buf.getD msgDataIndex 0
  let length := buf.getD (msgDataIndex + 1) 0
  if length.toNat + config.msgSize + 1 ≠ buf.length then none
  else
    let data := dataMsgInit command (copyPayload buf (msgDataIndex + 2) length)
    let crc := if config.checkCrc then buf.getD (msgDataIndex + 2 + length.toNat) 0 else 0
    let computed := crc8Calculate buf (msgDataIndex + 1 + length.toNat)
    if config.checkCrc ∧ crc ≠ computed then none
    else some { body := .data command length data, crc := crc, computed := computed }

def unpackVendor (config : Config) (buf : List U8) : Option Unpacked :=
  if buf.length < msgHeadSize + 3 then none
  else
    let vndId := be16ToCpu (buf.getD msgDataIndex 0) (buf.getD (msgDataIndex + 1) 0)
    let length := buf.getD (msgDataIndex + 2) 0
    let msgSize :=
      if config.checkCrc then msgHeadSize + 3 + length.toNat + 1
      else msgHeadSize + 3 + length.toNat
    if buf.length ≠ msgSize then none
    else
      let data := oplusDataMsgInit (copyPayload buf (msgDataIndex + 3) length)
      some
        { body := .vendor vndId length data
          crc := if config.checkCrc then buf.getD (msgDataIndex + 3 + length.toNat) 0 else 0
          computed := crc8Calculate buf (msgDataIndex + 2 + length.toNat) }

def unpackBody (config : Config) (type : U8) (buf : List U8) : Option Unpacked :=
  if type = 0#8 then unpackCtrl config buf
  else if type = 1#8 then unpackData config buf
  else if type = 2#8 then unpackVendor config buf
  else none

def unpackMsg (config : Config) (buf : List U8) : Option Msg :=
  if buf.length < config.msgSize then none
  else if msgSizeMax < buf.length then none
  else
    let head := be16ToCpu (buf.getD 0 0) (buf.getD 1 0)
    match unpackBody config ((head &&& msgHeadTypeMask).setWidth 8) buf with
    | none => none
    | some unpacked => some
        { version := (head &&& msgHeadVerMask).setWidth 8
          index := (head &&& msgHeadIndexMask).setWidth 8
          addr := (head &&& msgHeadAddrMask).setWidth 8
          body := unpacked.body
          crc := unpacked.crc
          crcGood := if config.checkCrc ∧ unpacked.crc ≠ unpacked.computed then 0 else 1 }

/-! ## The head -/

theorem be16ToCpu_cpuToBe16 (value : U16) :
    be16ToCpu ((value >>> 8).setWidth 8) (value.setWidth 8) = value := by
  apply BitVec.eq_of_getLsbD_eq
  intro i bound
  simp only [be16ToCpu, BitVec.getLsbD_or, BitVec.getLsbD_shiftLeft, BitVec.getLsbD_setWidth,
    BitVec.getLsbD_ushiftRight]
  by_cases low : i < 8
  · simp [bound, low]
  · have place : 8 + (i - 8) = i := by omega
    simp [bound, low, place, show i - 8 < 8 by omega, show i - 8 < 16 by omega]

theorem type_masked (body : Body) : body.type &&& 0x7#8 = body.type := by
  cases body <;> simp [Body.type]

theorem packHead_type (msg : Msg) :
    (packHead msg &&& msgHeadTypeMask).setWidth 8 = msg.body.type := by
  rw [← type_masked]
  ext i bound
  rcases i with _ | _ | _ | _ | _ | _ | _ | _ | i
  all_goals first | omega | simp [packHead, msgHeadTypeMask, msgHeadVerMask, msgHeadIndexMask,
    msgHeadAddrMask, msgHeadTypeIndex, msgHeadVerIndex, msgHeadIndexIndex, msgHeadAddrIndex]

theorem packHead_version (msg : Msg) :
    (packHead msg &&& msgHeadVerMask).setWidth 8 = msg.version <<< 3 := by
  ext i bound
  rcases i with _ | _ | _ | _ | _ | _ | _ | _ | i
  all_goals first | omega | simp [packHead, msgHeadTypeMask, msgHeadVerMask, msgHeadIndexMask,
    msgHeadAddrMask, msgHeadTypeIndex, msgHeadVerIndex, msgHeadIndexIndex, msgHeadAddrIndex]

theorem masked_index (head : U16) : (head &&& msgHeadIndexMask).setWidth 8 = 0#8 := by
  ext i bound
  rcases i with _ | _ | _ | _ | _ | _ | _ | _ | i
  all_goals first | omega | simp [msgHeadIndexMask]

theorem masked_addr (head : U16) : (head &&& msgHeadAddrMask).setWidth 8 = 0#8 := by
  ext i bound
  rcases i with _ | _ | _ | _ | _ | _ | _ | _ | i
  all_goals first | omega | simp [msgHeadAddrMask]

end VendorModules.Ufcs
