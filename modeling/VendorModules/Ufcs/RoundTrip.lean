import VendorModules.Ufcs.Message

/-!
# What a UFCS message keeps on the way through pack and unpack

The two directions disagree on the fields of the head, on the range of the CRC and on the power
change entries. `msg_roundTrips_iff` says which messages survive these disagreements.
-/

namespace VendorModules.Ufcs

def Body.Same : Body → Body → Prop
  | .ctrl command, .ctrl command' => command = command'
  | .data command length bytes, .data command' length' bytes' =>
    command = command' ∧ length = length' ∧ ∀ i < length.toNat, bytes i = bytes' i
  | .vendor vndId length bytes, .vendor vndId' length' bytes' =>
    vndId = vndId' ∧ length = length' ∧ ∀ i < length.toNat, bytes i = bytes' i
  | _, _ => False

/-- The same message for whoever reads it: its head, its command or vendor and the bytes of the
payload that its length announces, which hold the fields in host order. -/
structure Msg.Same (msg got : Msg) : Prop where
  version : msg.version = got.version
  index : msg.index = got.index
  addr : msg.addr = got.addr
  body : msg.body.Same got.body

def Body.Fits : Body → Prop
  | .ctrl _ => True
  | .data _ length _ => length.toNat ≤ dataMsgDataSizeMax
  | .vendor _ length _ => length.toNat ≤ vendorMsgDataSizeMax

/-- A frame that was packed unpacks to the message it was packed from, and with the CRC on no
other CRC byte passes. -/
def RoundTrips (config : Config) (msg : Msg) (len : Nat) : Prop :=
  ∀ frame after, packMsg config msg len = .ok (frame, after) →
    (∃ got, unpackMsg config frame = some got ∧ got.crcGood = 1 ∧ msg.Same got) ∧
    (config.checkCrc = true → ∀ crc, crc ≠ frame.getLastD 0 →
      ∀ got, unpackMsg config (frame.dropLast ++ [crc]) = some got → got.crcGood = 0)

/-! ## The frame of a message -/

def bodyBytes : Body → List U8
  | .ctrl command => [command]
  | .data command length data =>
    command :: length :: payloadBytes (dataMsgPack command data) length
  | .vendor vndId length data => cpuToBe16 vndId ++ length :: payloadBytes data length

def content (msg : Msg) : List U8 := cpuToBe16 (packHead msg) ++ bodyBytes msg.body

def sealFrame (config : Config) (bytes : List U8) (crc : U8) : List U8 :=
  if config.checkCrc then bytes ++ [crc] else bytes

def packedBody : Body → Body
  | .ctrl command => .ctrl command
  | .data command length data => .data command length (dataMsgPack command data)
  | .vendor vndId length data => .vendor vndId length data

/-- When packing takes a message: it fits the buffer, by the code's count of its size, and a
vendor message is one that the code sends. -/
def Packable (config : Config) (len : Nat) : Body → Prop
  | .ctrl _ => config.msgSize ≤ len
  | .data _ length _ => config.msgSize + (2 + length.toNat) ≤ len
  | .vendor _ length data =>
    isSupportedOplusCtrlMsg data = true ∧ config.msgSize + (3 + length.toNat) ≤ len

theorem packMsg_ok (config : Config) (msg : Msg) (len : Nat) (frame : List U8) (after : Msg) :
    packMsg config msg len = .ok (frame, after) ↔
      Packable config len msg.body ∧
      frame = sealFrame config (content msg)
        (crc8Calculate (content msg) (content msg).length) ∧
      after = { msg with body := packedBody msg.body } := by
  unfold packMsg content sealFrame
  cases body : msg.body with
  | ctrl command =>
    simp only [packBody, bodyBytes, packedBody, Packable]
    split_ifs with short checked <;> simp <;> grind
  | data command length data =>
    simp only [packBody, bodyBytes, packedBody, Packable]
    split_ifs with short long checked <;> simp <;> grind
  | vendor vndId length data =>
    simp only [packBody, bodyBytes, packedBody, Packable]
    split_ifs with short unsupported long checked <;> simp <;> grind

/-! ## Reading a sealed frame -/

def cut (data : Memory) (length : U8) : Memory := fun i =>
  if i < length.toNat then data i else 0

def unpackedBody : Body → Body
  | .ctrl command => .ctrl command
  | .data command length data =>
    .data command length (dataMsgInit command (cut (dataMsgPack command data) length))
  | .vendor vndId length data => .vendor vndId length (oplusDataMsgInit (cut data length))

/-- How many bytes of the frame the receiver computes the CRC over: all before the CRC of a
control message, one less of the others. -/
def crcRange (msg : Msg) : Nat :=
  match msg.body with
  | .ctrl _ => (content msg).length
  | .data .. | .vendor .. => (content msg).length - 1

theorem payloadBytes_length (data : Memory) (length : U8) :
    (payloadBytes data length).length = length.toNat := by
  simp [payloadBytes]

theorem copyPayload_append (before after : List U8) (data : Memory) (length : U8) :
    copyPayload (before ++ (payloadBytes data length ++ after)) before.length length =
      cut data length := by
  funext i
  unfold copyPayload cut
  split_ifs with inside
  · rw [List.getD_eq_getElem?_getD, List.getElem?_append_right (by omega),
      Nat.add_sub_cancel_left,
      List.getElem?_append_left (by rw [payloadBytes_length]; exact inside)]
    simp [payloadBytes, inside]
  · rfl

theorem getD_payload_end (before after : List U8) (data : Memory) (length : U8) :
    (before ++ (payloadBytes data length ++ after)).getD (before.length + length.toNat) 0 =
      after.getD 0 0 := by
  rw [List.getD_eq_getElem?_getD, List.getElem?_append_right (by omega),
    Nat.add_sub_cancel_left, List.getElem?_append_right (by rw [payloadBytes_length]),
    payloadBytes_length, Nat.sub_self, List.getD_eq_getElem?_getD]

theorem crc8Calculate_append (bytes after : List U8) (size : Nat) (inside : size ≤ bytes.length) :
    crc8Calculate (bytes ++ after) size = crc8Calculate bytes size := by
  unfold crc8Calculate
  rw [List.take_append_of_le_length]
  exact le_trans (Nat.mod_le size 256) inside

theorem sealFrame_eq (config : Config) (bytes : List U8) (crc : U8) :
    sealFrame config bytes crc = bytes ++ if config.checkCrc then [crc] else [] := by
  unfold sealFrame
  split_ifs <;> simp

theorem unpackCtrl_sealed (config : Config) (high low command crc : U8) :
    unpackCtrl config (sealFrame config [high, low, command] crc) = some
      { body := .ctrl command
        crc := if config.checkCrc then crc else 0
        computed := crc8Calculate [high, low, command] 3 } := by
  rw [sealFrame_eq]
  unfold unpackCtrl
  rw [crc8Calculate_append _ _ _ (by simp [msgDataIndex])]
  split_ifs <;> rfl

theorem unpackData_sealed (config : Config) (high low command length crc : U8) (data : Memory)
    (bytes : List U8) (frame : bytes = high :: low :: command :: length :: payloadBytes data length) :
    unpackData config (sealFrame config bytes crc) =
      if config.checkCrc = true ∧ crc ≠ crc8Calculate bytes (bytes.length - 1) then none
      else some
        { body := .data command length (dataMsgInit command (cut data length))
          crc := if config.checkCrc then crc else 0
          computed := crc8Calculate bytes (bytes.length - 1) } := by
  have count : bytes.length = 4 + length.toNat := by
    simp only [frame, List.length_cons, payloadBytes_length]
    omega
  have whole : sealFrame config bytes crc =
      [high, low, command, length] ++
        (payloadBytes data length ++ if config.checkCrc then [crc] else []) := by
    rw [sealFrame_eq, frame]
    simp
  have size : (sealFrame config bytes crc).length =
      length.toNat + config.msgSize + 1 := by
    rw [sealFrame_eq, List.length_append, count, Config.msgSize]
    split_ifs <;> simp [msgHeadSize] <;> omega
  have command_read : (sealFrame config bytes crc).getD msgDataIndex 0 = command := by
    rw [whole]
    rfl
  have length_read : (sealFrame config bytes crc).getD (msgDataIndex + 1) 0 = length := by
    rw [whole]
    rfl
  have copied : copyPayload (sealFrame config bytes crc) (msgDataIndex + 2) length =
      cut data length := by
    rw [whole]
    exact copyPayload_append [high, low, command, length] _ data length
  have crc_read : (sealFrame config bytes crc).getD (msgDataIndex + 2 + length.toNat) 0 =
      if config.checkCrc then crc else 0 := by
    rw [whole]
    refine (getD_payload_end [high, low, command, length] _ data length).trans ?_
    split_ifs <;> rfl
  have computed : crc8Calculate (sealFrame config bytes crc) (msgDataIndex + 1 + length.toNat) =
      crc8Calculate bytes (bytes.length - 1) := by
    have range : msgDataIndex + 1 + length.toNat = bytes.length - 1 := by
      rw [count, msgDataIndex]
      omega
    rw [sealFrame_eq, range, crc8Calculate_append _ _ _ (by omega)]
  simp only [unpackData, command_read, length_read, copied, crc_read, computed, size,
    ne_eq, not_true_eq_false, if_false]
  split_ifs <;> simp_all

theorem unpackVendor_sealed (config : Config) (high low length crc : U8) (vndId : U16)
    (data : Memory) (bytes : List U8)
    (frame : bytes = high :: low :: (cpuToBe16 vndId ++ length :: payloadBytes data length)) :
    unpackVendor config (sealFrame config bytes crc) = some
      { body := .vendor vndId length (oplusDataMsgInit (cut data length))
        crc := if config.checkCrc then crc else 0
        computed := crc8Calculate bytes (bytes.length - 1) } := by
  have count : bytes.length = 5 + length.toNat := by
    simp only [frame, List.length_cons, List.length_append, payloadBytes_length, cpuToBe16,
      List.length_nil]
    omega
  have whole : sealFrame config bytes crc =
      [high, low, (vndId >>> 8).setWidth 8, vndId.setWidth 8, length] ++
        (payloadBytes data length ++ if config.checkCrc then [crc] else []) := by
    rw [sealFrame_eq, frame, cpuToBe16]
    simp
  have size : (sealFrame config bytes crc).length =
      if config.checkCrc then msgHeadSize + 3 + length.toNat + 1
      else msgHeadSize + 3 + length.toNat := by
    rw [sealFrame_eq, List.length_append, count]
    split_ifs <;> simp [msgHeadSize]
  have enough : ¬(sealFrame config bytes crc).length < msgHeadSize + 3 := by
    rw [size]
    split_ifs <;> omega
  have vendor_read : be16ToCpu ((sealFrame config bytes crc).getD msgDataIndex 0)
      ((sealFrame config bytes crc).getD (msgDataIndex + 1) 0) = vndId := by
    rw [whole]
    exact be16ToCpu_cpuToBe16 vndId
  have length_read : (sealFrame config bytes crc).getD (msgDataIndex + 2) 0 = length := by
    rw [whole]
    rfl
  have copied : copyPayload (sealFrame config bytes crc) (msgDataIndex + 3) length =
      cut data length := by
    rw [whole]
    exact copyPayload_append [high, low, _, _, length] _ data length
  have crc_read : (sealFrame config bytes crc).getD (msgDataIndex + 3 + length.toNat) 0 =
      if config.checkCrc then crc else 0 := by
    rw [whole]
    refine (getD_payload_end [high, low, _, _, length] _ data length).trans ?_
    split_ifs <;> rfl
  have computed : crc8Calculate (sealFrame config bytes crc) (msgDataIndex + 2 + length.toNat) =
      crc8Calculate bytes (bytes.length - 1) := by
    have range : msgDataIndex + 2 + length.toNat = bytes.length - 1 := by
      rw [count, msgDataIndex]
      omega
    rw [sealFrame_eq, range, crc8Calculate_append _ _ _ (by omega)]
  simp only [unpackVendor, if_neg enough, vendor_read, length_read, copied, crc_read, computed]
  rw [if_neg (not_not.mpr size)]
  split_ifs <;> rfl

theorem content_length (msg : Msg) : 3 ≤ (content msg).length := by
  cases body : msg.body <;>
    simp [content, bodyBytes, body, cpuToBe16]

theorem sealFrame_length (config : Config) (bytes : List U8) (crc : U8) :
    (sealFrame config bytes crc).length =
      bytes.length + if config.checkCrc then 1 else 0 := by
  rw [sealFrame_eq]
  split_ifs <;> simp

theorem content_fits {msg : Msg} (fits : msg.body.Fits) : (content msg).length < msgSizeMax := by
  cases body : msg.body <;>
    simp [content, bodyBytes, body, cpuToBe16, payloadBytes_length, msgSizeMax] <;>
    simp [body, Body.Fits, dataMsgDataSizeMax, vendorMsgDataSizeMax] at fits <;> omega

/-- A frame that carries the message with any CRC byte: what is read from it, and when it is
thrown away or marked. -/
theorem unpackMsg_sealed (config : Config) {msg : Msg} (fits : msg.body.Fits) (crc : U8) :
    unpackMsg config (sealFrame config (content msg) crc) =
      if config.checkCrc = true ∧ crc ≠ crc8Calculate (content msg) (crcRange msg) ∧
          msg.body.type = 1#8 then none
      else some
        { version := msg.version <<< 3
          index := 0
          addr := 0
          body := unpackedBody msg.body
          crc := if config.checkCrc then crc else 0
          crcGood :=
            if config.checkCrc = true ∧ crc ≠ crc8Calculate (content msg) (crcRange msg) then 0
            else 1 } := by
  have short : ¬(sealFrame config (content msg) crc).length < config.msgSize := by
    have := content_length msg
    rw [sealFrame_length, Config.msgSize, msgHeadSize]
    split_ifs <;> omega
  have long : ¬msgSizeMax < (sealFrame config (content msg) crc).length := by
    have := content_fits fits
    rw [sealFrame_length]
    split_ifs <;> omega
  have head_read : be16ToCpu ((sealFrame config (content msg) crc).getD 0 0)
      ((sealFrame config (content msg) crc).getD 1 0) = packHead msg := by
    rw [sealFrame_eq, content, cpuToBe16]
    exact be16ToCpu_cpuToBe16 (packHead msg)
  simp only [unpackMsg, if_neg short, if_neg long, head_read, packHead_type, packHead_version,
    masked_index, masked_addr]
  cases body : msg.body with
  | ctrl command =>
    have frame : content msg = [(packHead msg >>> 8).setWidth 8, (packHead msg).setWidth 8,
        command] := by
      simp [content, bodyBytes, body, cpuToBe16]
    have range : crcRange msg = 3 := by simp [crcRange, body, frame]
    rw [range, frame]
    simp only [unpackBody, Body.type, if_true, unpackCtrl_sealed, unpackedBody]
    grind
  | data command length data =>
    have frame : content msg = (packHead msg >>> 8).setWidth 8 :: (packHead msg).setWidth 8 ::
        command :: length :: payloadBytes (dataMsgPack command data) length := by
      simp [content, bodyBytes, body, cpuToBe16]
    have range : crcRange msg = (content msg).length - 1 := by simp [crcRange, body]
    rw [range]
    simp only [unpackBody, Body.type, unpackData_sealed config _ _ _ _ crc _ _ frame, unpackedBody]
    grind
  | vendor vndId length data =>
    have frame : content msg = (packHead msg >>> 8).setWidth 8 :: (packHead msg).setWidth 8 ::
        (cpuToBe16 vndId ++ length :: payloadBytes data length) := by
      simp [content, bodyBytes, body, cpuToBe16]
    have range : crcRange msg = (content msg).length - 1 := by simp [crcRange, body]
    rw [range]
    simp only [unpackBody, Body.type, unpackVendor_sealed config _ _ _ crc _ _ _ frame,
      unpackedBody]
    grind

/-! ## What survives -/

/-- What the payload must be like for the two conversions to leave it as it was: zeros where
the length cuts a field, and power change entries whose overlap on the wire agrees. -/
def PayloadKept : Body → Prop
  | .ctrl _ => True
  | .data command length bytes =>
    if DataMsgType.ofCommand command = some .powerChange then
      ∀ i < length.toNat, bytes i = (restoredFrom i).elim 0#8 fun place => bytes (packedFrom place)
    else
      ∀ i < length.toNat,
        mirror (DataMsgType.ofCommand command) i < length.toNat ∨ bytes i = 0#8
  | .vendor .. => True

/-- The messages that the two directions agree on: nothing in the head but the type is out of
its place, and the CRC does not change with the byte the receiver leaves out. -/
structure Preserved (config : Config) (msg : Msg) : Prop where
  version : msg.version = 0
  index : msg.index = 0
  addr : msg.addr = 0
  crc : config.checkCrc = true →
    crc8Calculate (content msg) (content msg).length = crc8Calculate (content msg) (crcRange msg)
  payload : PayloadKept msg.body

theorem restoredFrom_le {i place : Nat} (restored : restoredFrom i = some place) : place ≤ i := by
  unfold restoredFrom at restored
  split_ifs at restored <;> simp only [Option.some.injEq] at restored <;> omega

theorem unpacked_powerChange {command : U8}
    (type : DataMsgType.ofCommand command = some .powerChange) (data : Memory) (length : U8)
    {i : Nat} (inside : i < length.toNat) :
    dataMsgInit command (cut (dataMsgPack command data) length) i =
      (restoredFrom i).elim 0#8 fun place => data (packedFrom place) := by
  simp only [dataMsgInit, dataMsgPack, type, recvDataMsgPowerChange_apply]
  cases restored : restoredFrom i with
  | none => rfl
  | some place =>
    have sent : place < length.toNat := lt_of_le_of_lt (restoredFrom_le restored) inside
    simp [cut, sent, packDataMsgPowerChange_apply]

theorem unpacked_mirrored {command : U8}
    (other : DataMsgType.ofCommand command ≠ some .powerChange) (data : Memory) (length : U8)
    (i : Nat) :
    dataMsgInit command (cut (dataMsgPack command data) length) i =
      if mirror (DataMsgType.ofCommand command) i < length.toNat then data i else 0#8 := by
  rw [dataMsgInit_eq_pack other, dataMsgPack_apply other, cut, dataMsgPack_apply other,
    mirror_mirror]
  rfl

theorem oplusDataMsgInit_sent {data : Memory} (sent : isSupportedOplusCtrlMsg data = true)
    (length : U8) : oplusDataMsgInit (cut data length) = cut data length := by
  have first : cut data length 0 = data 0 ∨ cut data length 0 = 0#8 := by
    unfold cut
    split_ifs
    · exact .inl rfl
    · exact .inr rfl
  have apart : cut data length 0 ≠ 0x02#8 ∧ cut data length 0 ≠ 0x04#8 := by
    simp only [isSupportedOplusCtrlMsg, Bool.or_eq_true, decide_eq_true_eq] at sent
    rcases first with same | zero
    · rw [same]
      rcases sent with get | get <;> rw [get] <;> decide
    · rw [zero]
      decide
  rw [oplusDataMsgInit, if_neg apart.1, if_neg apart.2]

theorem same_unpackedBody {config : Config} {len : Nat} {body : Body}
    (packs : Packable config len body) : body.Same (unpackedBody body) ↔ PayloadKept body := by
  cases body with
  | ctrl command => simp [Body.Same, unpackedBody, PayloadKept]
  | data command length data =>
    simp only [Body.Same, unpackedBody, PayloadKept, true_and]
    split_ifs with change
    · exact forall₂_congr fun i inside => by rw [unpacked_powerChange change data length inside]
    · refine forall₂_congr fun i _ => ?_
      rw [unpacked_mirrored change]
      split_ifs with sent <;> simp [sent]
  | vendor vndId length data =>
    simp only [Body.Same, unpackedBody, PayloadKept, true_and, oplusDataMsgInit_sent packs.1,
      iff_true]
    intro i inside
    simp [cut, inside]

theorem version_shift {version : U8} : version = version <<< 3 ↔ version = 0 := by
  revert version
  decide

def received (config : Config) (msg : Msg) (crc : U8) : Msg :=
  { version := msg.version <<< 3
    index := 0
    addr := 0
    body := unpackedBody msg.body
    crc := if config.checkCrc then crc else 0
    crcGood := 1 }

theorem unpackMsg_matching {config : Config} {msg : Msg} (fits : msg.body.Fits) {crc : U8}
    (matching : config.checkCrc = true → crc = crc8Calculate (content msg) (crcRange msg)) :
    unpackMsg config (sealFrame config (content msg) crc) = some (received config msg crc) := by
  have clash : ¬(config.checkCrc = true ∧ crc ≠ crc8Calculate (content msg) (crcRange msg)) :=
    fun both => both.2 (matching both.1)
  rw [unpackMsg_sealed config fits, if_neg fun thrown => clash ⟨thrown.1, thrown.2.1⟩,
    if_neg clash]
  rfl

theorem unpackMsg_clashing {config : Config} {msg : Msg} (fits : msg.body.Fits) {crc : U8}
    (checked : config.checkCrc = true) (clash : crc ≠ crc8Calculate (content msg) (crcRange msg))
    {got : Msg} (read : unpackMsg config (sealFrame config (content msg) crc) = some got) :
    got.crcGood = 0 := by
  rw [unpackMsg_sealed config fits] at read
  by_cases thrown : msg.body.type = 1#8
  · rw [if_pos ⟨checked, clash, thrown⟩] at read
    cases read
  · rw [if_neg fun all => thrown all.2.2] at read
    cases read
    exact if_pos ⟨checked, clash⟩

theorem msg_roundTrips_iff (config : Config) (msg : Msg) (len : Nat) (fits : msg.body.Fits) :
    RoundTrips config msg len ↔ (Packable config len msg.body → Preserved config msg) := by
  constructor
  · intro roundTrips packs
    obtain ⟨⟨got, read, good, same⟩, -⟩ :=
      roundTrips _ _ ((packMsg_ok config msg len _ _).mpr ⟨packs, rfl, rfl⟩)
    have matching : config.checkCrc = true →
        crc8Calculate (content msg) (content msg).length =
          crc8Calculate (content msg) (crcRange msg) := by
      intro checked
      by_contra clash
      rw [unpackMsg_clashing fits checked clash read] at good
      exact absurd good (by decide)
    rw [unpackMsg_matching fits matching] at read
    cases read
    exact
      { version := version_shift.mp same.version
        index := same.index
        addr := same.addr
        crc := matching
        payload := (same_unpackedBody packs).mp same.body }
  · intro preserved frame after packed
    obtain ⟨packs, rfl, rfl⟩ := (packMsg_ok config msg len _ _).mp packed
    have kept := preserved packs
    refine ⟨⟨_, unpackMsg_matching fits kept.crc, rfl, ?_⟩, ?_⟩
    · exact
        { version := version_shift.mpr kept.version
          index := kept.index
          addr := kept.addr
          body := (same_unpackedBody packs).mpr kept.payload }
    · intro checked crc changed got read
      have frame : sealFrame config (content msg)
          (crc8Calculate (content msg) (content msg).length) =
            content msg ++ [crc8Calculate (content msg) (content msg).length] := if_pos checked
      rw [frame, List.getLastD_concat, kept.crc checked] at changed
      rw [frame, List.dropLast_concat] at read
      have resealed : content msg ++ [crc] = sealFrame config (content msg) crc :=
        (if_pos checked).symm
      rw [resealed] at read
      exact unpackMsg_clashing fits checked changed read

def watchdogMsg : Msg :=
  { version := 0
    index := 0
    addr := 0
    body := .data 0x08#8 2#8 fun i => [0x88#8, 0x13#8].getD i 0 }

/-- A watchdog time of 5 s goes through where the hardware checks the CRC. -/
theorem watchdog_roundTrips : RoundTrips ⟨false, true⟩ watchdogMsg 64 := by
  refine (msg_roundTrips_iff _ watchdogMsg _ (show _ ≤ 59 by decide)).mpr fun _ => ?_
  have whole : ∀ i < 2, mirror (some .configWatchdog) i < 2 := by decide
  exact
    { version := rfl
      index := rfl
      addr := rfl
      crc := fun checked => nomatch checked
      payload := fun i inside => .inl (whole i inside) }

def requestMsg : Msg :=
  { version := 1
    index := 1
    addr := 1
    body := .data 0x02#8 8#8 fun i =>
      [0xc8#8, 0x00#8, 0xf4#8, 0x01#8, 0x00#8, 0x00#8, 0x00#8, 0x10#8].getD i 0 }

/-- The receiver throws the frame away for its CRC. -/
theorem request_not_roundTrips : ¬RoundTrips ⟨true, true⟩ requestMsg 64 := by
  intro roundTrips
  have packs : Packable ⟨true, true⟩ 64 requestMsg.body := show 4 + (2 + 8) ≤ 64 by decide
  obtain ⟨⟨got, read, -⟩, -⟩ :=
    roundTrips _ _ ((packMsg_ok _ requestMsg _ _ _).mpr ⟨packs, rfl, rfl⟩)
  have thrown : (unpackMsg ⟨true, true⟩ (sealFrame ⟨true, true⟩ (content requestMsg)
      (crc8Calculate (content requestMsg) (content requestMsg).length))).isSome = false := by
    decide +kernel
  rw [read] at thrown
  exact nomatch thrown

end VendorModules.Ufcs
