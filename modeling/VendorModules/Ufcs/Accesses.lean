import VendorModules.Ufcs.Message

namespace VendorModules.Ufcs

/-! What `ufcs_unpack_msg` touches: the bytes of the frame it reads, and the
payload area it copies into. -/

inductive Access
  | read (first count : Nat)
  | copy (count area : Nat)
  deriving DecidableEq

@[simp] def Access.Inside (len : Nat) : Access → Prop
  | .read first count => first + count ≤ len
  | .copy count area => count ≤ area

def ctrlAccesses (config : Config) : List Access :=
  .read msgDataIndex 1 ::
    if config.checkCrc then [.read (msgDataIndex + 1) 1, .read 0 (msgDataIndex + 1)] else []

def dataAccesses (config : Config) (buf : List U8) : List Access :=
  let length := (buf.getD (msgDataIndex + 1) 0).toNat
  [.read msgDataIndex 1, .read (msgDataIndex + 1) 1] ++
    if length + config.msgSize + 1 ≠ buf.length then []
    else [.read (msgDataIndex + 2) length, .copy length dataMsgDataSizeMax] ++
      if config.checkCrc then
        [.read (msgDataIndex + 2 + length) 1, .read 0 (msgDataIndex + 1 + length)]
      else []

def vendorAccesses (config : Config) (buf : List U8) : List Access :=
  let length := (buf.getD (msgDataIndex + 2) 0).toNat
  if buf.length < msgHeadSize + 3 then []
  else
    [.read msgDataIndex 2, .read (msgDataIndex + 2) 1] ++
      if buf.length ≠ msgHeadSize + 3 + length + (if config.checkCrc then 1 else 0) then []
      else [.read (msgDataIndex + 3) length, .copy length vendorMsgDataSizeMax] ++
        if config.checkCrc then
          [.read (msgDataIndex + 3 + length) 1, .read 0 (msgDataIndex + 2 + length)]
        else []

def frameType (buf : List U8) : U8 :=
  (be16ToCpu (buf.getD 0 0) (buf.getD 1 0) &&& msgHeadTypeMask).setWidth 8

def unpackAccesses (config : Config) (alloc : Bool) (buf : List U8) : List Access :=
  if buf.length < config.msgSize ∨ msgSizeMax < buf.length ∨ alloc = false then []
  else .read 0 2 ::
    if frameType buf = 0#8 then ctrlAccesses config
    else if frameType buf = 1#8 then dataAccesses config buf
    else if frameType buf = 2#8 then vendorAccesses config buf
    else []

def unpackOutcome (config : Config) (alloc : Bool) (buf : List U8) : Option Msg × Nat :=
  if buf.length < config.msgSize ∨ msgSizeMax < buf.length ∨ alloc = false then (none, 0)
  else
    let allocated := 1
    match unpackMsg config buf with
    | some msg => (some msg, allocated)
    | none => (none, allocated - 1)

/-! ## What the caller relies on -/

structure Received (buf : List U8) (offset area : Nat) (length : U8) (data : Memory) : Prop where
  inside : ∀ i, area ≤ i → data i = 0
  known : ∀ i, data i ≠ 0 → ∃ j, j < length.toNat ∧ buf[offset + j]? = some (data i)

def Msg.Agrees (config : Config) (buf : List U8) (msg : Msg) : Prop :=
  match msg.body with
  | .ctrl command => buf[2]? = some command
  | .data command length data =>
    buf[2]? = some command ∧ buf[3]? = some length ∧
      length.toNat + config.msgSize + 1 = buf.length ∧
      data = dataMsgInit command (copyPayload buf 4 length) ∧
      Received buf 4 dataMsgDataSizeMax length data
  | .vendor vndId length data =>
    (∃ high low, buf[2]? = some high ∧ buf[3]? = some low ∧ vndId = be16ToCpu high low) ∧
      buf[4]? = some length ∧
      length.toNat + msgHeadSize + 3 + (if config.checkCrc then 1 else 0) = buf.length ∧
      data = oplusDataMsgInit (copyPayload buf 5 length) ∧
      Received buf 5 vendorMsgDataSizeMax length data

/-- A call touches only the frame and the payload area, and returns nothing with
nothing allocated, or a message that agrees with the frame. -/
def UnpackSound (config : Config) (buf : List U8) : Prop :=
  ∀ alloc, (∀ access ∈ unpackAccesses config alloc buf, access.Inside buf.length) ∧
    match unpackOutcome config alloc buf with
    | (none, allocated) => allocated = 0
    | (some msg, _) => msg.Agrees config buf

/-- Without a CRC, a data message without its length byte, or a payload one byte
larger than its area. -/
def Overrun (config : Config) (buf : List U8) : Prop :=
  config.checkCrc = false ∧
    ((frameType buf = 1#8 ∧ (buf.length = 3 ∨ buf.length = 64 ∧ buf.getD 3 0 = 60#8)) ∨
      (frameType buf = 2#8 ∧ buf.length = 64 ∧ buf.getD 4 0 = 59#8))

/-! ## Conversions -/

/-- Every byte of a converted payload is a byte of the payload or zero, and
those behind the area are left alone. -/
theorem dataMsgInit_source (command : U8) (mem : Memory) (i : Nat) :
    (dataMsgInit command mem i = 0 ∨ ∃ j, dataMsgInit command mem i = mem j) ∧
      (dataMsgDataSizeMax ≤ i → dataMsgInit command mem i = mem i) := by
  by_cases power : DataMsgType.ofCommand command = some .powerChange
  · rw [dataMsgInit, power]
    simp only [recvDataMsgPowerChange_apply, dataMsgDataSizeMax]
    refine ⟨?_, fun behind => by simp [restoredFrom, show ¬ i < 28 by omega]⟩
    cases restoredFrom i with
    | none => exact .inl rfl
    | some j => exact .inr ⟨j, rfl⟩
  · rw [dataMsgInit_eq_pack power, dataMsgPack_apply power]
    refine ⟨.inr ⟨_, rfl⟩, fun behind => congrArg mem ?_⟩
    simp only [dataMsgDataSizeMax] at behind
    cases DataMsgType.ofCommand command with
    | none => rfl
    | some type => cases type <;> simp only [mirror] <;> grind

theorem oplusDataMsgInit_source (mem : Memory) (i : Nat) :
    (∃ j, oplusDataMsgInit mem i = mem j) ∧
      (vendorMsgDataSizeMax ≤ i → oplusDataMsgInit mem i = mem i) := by
  unfold oplusDataMsgInit vendorMsgDataSizeMax
  split
  · unfold recvOplusDataMsgEmarkInfo reverseField
    split
    · exact ⟨⟨_, rfl⟩, fun behind => by omega⟩
    · exact ⟨⟨_, rfl⟩, fun _ => rfl⟩
  · split
    · rw [recvDataMsgPowerInfoExt, reverseFields_apply _ _ _ _ _ (by decide)]
      split
      · exact ⟨⟨_, rfl⟩, fun behind => by omega⟩
      · exact ⟨⟨_, rfl⟩, fun _ => rfl⟩
    · exact ⟨⟨i, rfl⟩, fun _ => rfl⟩

theorem received_of_source {buf : List U8} {offset area : Nat} {length : U8} {data : Memory}
    (fits : length.toNat ≤ area) (present : offset + length.toNat ≤ buf.length)
    (source : ∀ i, (data i = 0 ∨ ∃ j, data i = copyPayload buf offset length j) ∧
      (area ≤ i → data i = copyPayload buf offset length i)) :
    Received buf offset area length data := by
  constructor
  · intro i behind
    rw [(source i).2 behind, copyPayload, if_neg (by omega)]
  · intro i nonzero
    obtain ⟨j, same⟩ := (source i).1.resolve_left nonzero
    rw [same, copyPayload] at nonzero ⊢
    have received : j < length.toNat := by
      by_contra beyond
      exact nonzero (if_neg beyond)
    rw [if_pos received]
    exact ⟨j, received, by rw [List.getD_eq_getElem?_getD, List.getElem?_eq_getElem (by omega)]; rfl⟩

/-! ## Calls -/

variable {config : Config} {buf : List U8}

theorem get_getD {i : Nat} (inside : i < buf.length) : buf[i]? = some (buf.getD i 0) := by
  rw [List.getD_eq_getElem?_getD, List.getElem?_eq_getElem inside]
  rfl

theorem ctrlAccesses_inside (long : config.msgSize ≤ buf.length) :
    ∀ access ∈ ctrlAccesses config, access.Inside buf.length := by
  obtain ⟨checkCrc, msgResend⟩ := config
  cases checkCrc with
  | false => simpa [ctrlAccesses, msgDataIndex, Access.Inside, Config.msgSize, msgHeadSize] using long
  | true =>
    simp only [Config.msgSize, msgHeadSize, if_true] at long
    simp [ctrlAccesses, msgDataIndex, Access.Inside]
    omega

theorem dataAccesses_inside (long : config.msgSize ≤ buf.length) (short : buf.length ≤ 64)
    (clean : config.checkCrc = false →
      ¬ (buf.length = 3 ∨ buf.length = 64 ∧ buf.getD 3 0 = 60#8)) :
    ∀ access ∈ dataAccesses config buf, access.Inside buf.length := by
  have value : (buf.getD 3 0).toNat = 60 → buf.getD 3 0 = 60#8 :=
    fun same => BitVec.eq_of_toNat_eq same
  obtain ⟨checkCrc, msgResend⟩ := config
  cases checkCrc with
  | false =>
    change ∀ access ∈ ([.read 2 1, .read 3 1] ++
      if (buf.getD 3 0).toNat + 3 + 1 ≠ buf.length then []
      else [.read 4 (buf.getD 3 0).toNat, .copy (buf.getD 3 0).toNat 59] ++ [] : List Access), _
    obtain ⟨notEmpty, notFull⟩ := not_or.mp (clean rfl)
    replace notFull : ¬ (buf.length = 64 ∧ (buf.getD 3 0).toNat = 60) :=
      fun full => notFull (full.imp_right value)
    change 3 ≤ buf.length at long
    generalize (buf.getD 3 0).toNat = length at notFull
    split <;> simp <;> omega
  | true =>
    change ∀ access ∈ ([.read 2 1, .read 3 1] ++
      if (buf.getD 3 0).toNat + 4 + 1 ≠ buf.length then []
      else [.read 4 (buf.getD 3 0).toNat, .copy (buf.getD 3 0).toNat 59] ++
        [.read (4 + (buf.getD 3 0).toNat) 1, .read 0 (3 + (buf.getD 3 0).toNat)] : List Access), _
    change 4 ≤ buf.length at long
    generalize (buf.getD 3 0).toNat = length
    split <;> simp <;> omega

theorem vendorAccesses_inside (short : buf.length ≤ 64)
    (clean : config.checkCrc = false → ¬ (buf.length = 64 ∧ buf.getD 4 0 = 59#8)) :
    ∀ access ∈ vendorAccesses config buf, access.Inside buf.length := by
  have value : (buf.getD 4 0).toNat = 59 → buf.getD 4 0 = 59#8 :=
    fun same => BitVec.eq_of_toNat_eq same
  unfold vendorAccesses
  split
  · simp
  rename_i long
  change ¬ buf.length < 5 at long
  obtain ⟨checkCrc, msgResend⟩ := config
  cases checkCrc with
  | false =>
    change ∀ access ∈ ([.read 2 2, .read 4 1] ++
      if buf.length ≠ 5 + (buf.getD 4 0).toNat + 0 then []
      else [.read 5 (buf.getD 4 0).toNat, .copy (buf.getD 4 0).toNat 58] ++ [] : List Access), _
    have notFull : ¬ (buf.length = 64 ∧ (buf.getD 4 0).toNat = 59) :=
      fun full => clean rfl (full.imp_right value)
    generalize (buf.getD 4 0).toNat = length at notFull
    split <;> simp <;> omega
  | true =>
    change ∀ access ∈ ([.read 2 2, .read 4 1] ++
      if buf.length ≠ 5 + (buf.getD 4 0).toNat + 1 then []
      else [.read 5 (buf.getD 4 0).toNat, .copy (buf.getD 4 0).toNat 58] ++
        [.read (5 + (buf.getD 4 0).toNat) 1, .read 0 (4 + (buf.getD 4 0).toNat)] : List Access), _
    generalize (buf.getD 4 0).toNat = length
    split <;> simp <;> omega

theorem unpackAccesses_inside (clean : ¬ Overrun config buf) (alloc : Bool) :
    ∀ access ∈ unpackAccesses config alloc buf, access.Inside buf.length := by
  unfold unpackAccesses
  split
  · simp
  rename_i allowed
  obtain ⟨long, short, -⟩ := not_or.mp allowed |>.imp_right not_or.mp
  rw [Nat.not_lt] at long
  have head : Access.Inside buf.length (.read 0 2) := by
    simp only [Config.msgSize, msgHeadSize] at long
    simp only [Access.Inside]
    split at long <;> omega
  have short : buf.length ≤ 64 := Nat.not_lt.mp short
  refine List.forall_mem_cons.mpr ⟨head, ?_⟩
  split
  · exact ctrlAccesses_inside long
  split
  · rename_i data
    exact dataAccesses_inside long short fun plain past => clean ⟨plain, .inl ⟨data, past⟩⟩
  split
  · rename_i vendor
    exact vendorAccesses_inside short fun plain past => clean ⟨plain, .inr ⟨vendor, past⟩⟩
  · simp

theorem not_inside_of_overrun (overrun : Overrun config buf) :
    ¬ ∀ access ∈ unpackAccesses config true buf, access.Inside buf.length := by
  intro inside
  obtain ⟨plain, ⟨data, short | ⟨full, length⟩⟩ | ⟨vendor, full, length⟩⟩ := overrun
  · have := inside (.read 3 1) (by
      simp [unpackAccesses, Config.msgSize, plain, data, short, dataAccesses, msgDataIndex,
        msgHeadSize, msgSizeMax])
    simp [Access.Inside, short] at this
  · have := inside (.copy 60 59) (by
      simp only [unpackAccesses, Config.msgSize, plain, data, full, dataAccesses, msgDataIndex,
        msgHeadSize, msgSizeMax, dataMsgDataSizeMax, length, Nat.reduceAdd]
      simp)
    simp [Access.Inside] at this
  · have := inside (.copy 59 58) (by
      simp only [unpackAccesses, Config.msgSize, plain, vendor, full, vendorAccesses, msgDataIndex,
        msgHeadSize, msgSizeMax, vendorMsgDataSizeMax, length, Nat.reduceAdd]
      simp)
    simp [Access.Inside] at this

theorem unpackData_agrees (short : buf.length ≤ 64)
    (clean : config.checkCrc = false → ¬ (buf.length = 64 ∧ buf.getD 3 0 = 60#8))
    {unpacked : Unpacked} {msg : Msg} (same : msg.body = unpacked.body)
    (found : unpackData config buf = some unpacked) : msg.Agrees config buf := by
  obtain ⟨length, found⟩ := Option.ite_none_left_eq_some.mp found
  obtain ⟨-, found⟩ := Option.ite_none_left_eq_some.mp found
  obtain rfl := Option.some.inj found
  replace length : (buf.getD 3 0).toNat + (if config.checkCrc then 4 else 3) + 1 = buf.length :=
    not_not.mp length
  have value : (buf.getD 3 0).toNat = 60 → buf.getD 3 0 = 60#8 :=
    fun same => BitVec.eq_of_toNat_eq same
  have size : (buf.getD 3 0).toNat ≤ 59 ∧ 4 + (buf.getD 3 0).toNat ≤ buf.length := by
    cases crc : config.checkCrc with
    | false =>
      have notFull : ¬ (buf.length = 64 ∧ (buf.getD 3 0).toNat = 60) :=
        fun full => clean crc (full.imp_right value)
      simp only [crc, Bool.false_eq_true, if_false] at length
      omega
    | true =>
      simp only [crc, if_true] at length
      omega
  rw [Msg.Agrees, same]
  exact ⟨get_getD (by omega), get_getD (by omega), length, rfl,
    received_of_source size.1 size.2 fun i => dataMsgInit_source _ _ i⟩

theorem unpackVendor_agrees (short : buf.length ≤ 64)
    (clean : config.checkCrc = false → ¬ (buf.length = 64 ∧ buf.getD 4 0 = 59#8))
    {unpacked : Unpacked} {msg : Msg} (same : msg.body = unpacked.body)
    (found : unpackVendor config buf = some unpacked) : msg.Agrees config buf := by
  obtain ⟨long, found⟩ := Option.ite_none_left_eq_some.mp found
  obtain ⟨length, found⟩ := Option.ite_none_left_eq_some.mp found
  obtain rfl := Option.some.inj found
  change ¬ buf.length < 5 at long
  replace length : buf.length = if config.checkCrc then 5 + (buf.getD 4 0).toNat + 1
    else 5 + (buf.getD 4 0).toNat := not_not.mp length
  have value : (buf.getD 4 0).toNat = 59 → buf.getD 4 0 = 59#8 :=
    fun same => BitVec.eq_of_toNat_eq same
  have size : (buf.getD 4 0).toNat ≤ 58 ∧ 5 + (buf.getD 4 0).toNat ≤ buf.length ∧
      (buf.getD 4 0).toNat + 2 + 3 + (if config.checkCrc then 1 else 0) = buf.length := by
    cases crc : config.checkCrc with
    | false =>
      have notFull : ¬ (buf.length = 64 ∧ (buf.getD 4 0).toNat = 59) :=
        fun full => clean crc (full.imp_right value)
      simp only [crc, Bool.false_eq_true, if_false] at length ⊢
      omega
    | true =>
      simp only [crc, if_true] at length ⊢
      omega
  rw [Msg.Agrees, same]
  exact ⟨⟨_, _, get_getD (by omega), get_getD (by omega), rfl⟩, get_getD (by omega), size.2.2, rfl,
    received_of_source size.1 size.2.1 fun i =>
      ⟨.inr (oplusDataMsgInit_source _ i).1, (oplusDataMsgInit_source _ i).2⟩⟩

theorem unpackMsg_agrees (clean : ¬ Overrun config buf) {msg : Msg}
    (found : unpackMsg config buf = some msg) : msg.Agrees config buf := by
  obtain ⟨long, found⟩ := Option.ite_none_left_eq_some.mp found
  obtain ⟨short, found⟩ := Option.ite_none_left_eq_some.mp found
  have short : buf.length ≤ 64 := Nat.not_lt.mp short
  have long : 3 ≤ buf.length := by
    simp only [Config.msgSize, msgHeadSize] at long
    split at long <;> omega
  cases body : unpackBody config (frameType buf) buf with
  | none =>
    rw [frameType] at body
    simp only [body, reduceCtorEq] at found
  | some unpacked =>
    have same : msg.body = unpacked.body := by
      rw [frameType] at body
      simp only [body, Option.some.injEq] at found
      rw [← found]
    unfold unpackBody at body
    split at body
    · obtain rfl := Option.some.inj body
      rw [Msg.Agrees, same]
      exact get_getD (by omega)
    split at body
    · rename_i data
      exact unpackData_agrees short (fun plain past => clean ⟨plain, .inl ⟨data, .inr past⟩⟩) same
        body
    split at body
    · rename_i vendor
      exact unpackVendor_agrees short (fun plain past => clean ⟨plain, .inr ⟨vendor, past⟩⟩) same
        body
    · simp at body

end VendorModules.Ufcs
