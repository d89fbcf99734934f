import VendorModules.T2lm.Element

/-!
# TID-to-link mappings through their elements

What the decoder makes of the elements that the encoder wrote, one field after the other, and
from it what becomes of a negotiation.
-/

namespace VendorModules.T2lm

open Lib

/-! ## Values in bytes -/

theorem le16ToCpu_htole16 (value : U16) :
    le16ToCpu (value.setWidth 8) ((value >>> 8).setWidth 8) = value := by
  apply BitVec.eq_of_getLsbD_eq
  intro i bound
  simp only [le16ToCpu, BitVec.getLsbD_or, BitVec.getLsbD_shiftLeft, BitVec.getLsbD_setWidth,
    BitVec.getLsbD_ushiftRight]
  by_cases low : i < 8
  · simp [bound, low]
  · have place : 8 + (i - 8) = i := by omega
    simp [bound, low, place, show i - 8 < 8 by omega, show i - 8 < 16 by omega]

theorem durationOfBytes_bytes {value : U32} (small : value.toNat < 16777216) :
    durationOfBytes (value.setWidth 8) ((value >>> 8).setWidth 8) ((value >>> 16).setWidth 8) =
      value := by
  apply BitVec.eq_of_getLsbD_eq
  intro i bound
  simp only [durationOfBytes, BitVec.getLsbD_or, BitVec.getLsbD_shiftLeft, BitVec.getLsbD_setWidth,
    BitVec.getLsbD_ushiftRight]
  by_cases low : i < 8
  · simp [bound, low, show i < 16 by omega]
  · by_cases middle : i < 16
    · have place : 8 + (i - 8) = i := by omega
      simp [bound, low, middle, place, show i - 8 < 8 by omega, show i - 8 < 32 by omega]
    · by_cases high : i < 24
      · have place : 16 + (i - 16) = i := by omega
        simp [bound, low, middle, place, show ¬i - 8 < 8 by omega, show i - 16 < 8 by omega,
          show i - 16 < 32 by omega]
      · have zero : value.getLsbD i = false := by
          rw [← BitVec.testBit_toNat]
          exact Nat.testBit_lt_two_pow (lt_of_lt_of_le small
            (Nat.pow_le_pow_right (n := 2) (by decide) (show 24 ≤ i by omega)))
        simp [low, zero, show ¬i - 8 < 8 by omega, show ¬i - 16 < 8 by omega]

/-! ## The control field -/

theorem bit_masked (flag : Bool) : bit flag &&& BitField.mask 16 1 = bit flag := by
  cases flag <;> decide

theorem bit_ne_zero (flag : Bool) : decide (bit flag ≠ 0) = flag := by
  cases flag <;> decide

theorem controlFlags_get (t2lm : T2lmInfo) :
    BitField.get (controlFlags t2lm) 0 2 = t2lm.direction.code &&& BitField.mask 16 2 ∧
    BitField.get (controlFlags t2lm) 2 1 = bit t2lm.defaultLinkMapping ∧
    BitField.get (controlFlags t2lm) 3 1 = bit t2lm.mappingSwitchTimePresent ∧
    BitField.get (controlFlags t2lm) 4 1 = bit t2lm.expectedDurationPresent ∧
    BitField.get (controlFlags t2lm) 5 1 = bit t2lm.linkMappingSize := by
  refine ⟨?_, ?_, ?_, ?_, ?_⟩
  all_goals
    simp only [controlFlags]
    repeat rw [BitField.get_set_of_disjoint _ _ (by decide)]
    rw [BitField.get_set _ _ (by decide)]
    try rw [bit_masked]

theorem ofBits_code {dir : Direction} (listed : dir ∈ directions) :
    Direction.ofBits (dir.code &&& BitField.mask 16 2) = some dir := by
  cases dir <;> first | decide | simp [directions] at listed

def flagsOnly (t2lm : T2lmInfo) : T2lmInfo where
  direction := t2lm.direction
  defaultLinkMapping := t2lm.defaultLinkMapping
  mappingSwitchTimePresent := t2lm.mappingSwitchTimePresent
  expectedDurationPresent := t2lm.expectedDurationPresent
  mappingSwitchTime := 0
  expectedDuration := 0
  ieeeLinkMapTid := fun _ => 0
  hwLinkMapTid := fun _ => 0
  linkMappingSize := t2lm.linkMappingSize

theorem parseControl_flags {control : U16} {t2lm : T2lmInfo}
    (same : ∀ index bits, index + bits ≤ 8 →
      BitField.get control index bits = BitField.get (controlFlags t2lm) index bits) :
    parseControl control t2lm.direction .zero = flagsOnly t2lm := by
  obtain ⟨-, default, time, duration, size⟩ := controlFlags_get t2lm
  simp only [parseControl, same 2 1 (by decide), same 3 1 (by decide), same 4 1 (by decide),
    same 5 1 (by decide), default, time, duration, size, bit_ne_zero, T2lmInfo.zero, flagsOnly]

/-! ## The presence indicator -/

theorem getLsbD_bit (n i : Nat) (small : i < 8) : (1#8 <<< n).getLsbD i = decide (i = n) := by
  rw [BitVec.getLsbD_shiftLeft, BitVec.getLsbD_one]
  grind

theorem presence_prefix (t2lm : T2lmInfo) (n tid : Nat) (small : tid < 8) :
    ((List.range n).foldl (fun (indicator : U8) tid =>
      if t2lm.hwLinkMapTid tid ≠ 0 ∨ t2lm.ieeeLinkMapTid tid ≠ 0 then indicator ||| (1#8 <<< tid)
      else indicator) 0).getLsbD tid =
      decide (tid < n ∧ (t2lm.hwLinkMapTid tid ≠ 0 ∨ t2lm.ieeeLinkMapTid tid ≠ 0)) := by
  induction n with
  | zero => simp
  | succ n ih =>
    rw [List.range_succ, List.foldl_append, List.foldl_cons, List.foldl_nil]
    by_cases same : tid = n
    · subst same
      split_ifs with present
      · rw [BitVec.getLsbD_or, getLsbD_bit _ _ small]
        simpa using not_and_or.mp (mt not_or.mpr (not_not.mpr present))
      · rw [ih]
        simpa using present
    · have before : tid < n + 1 ↔ tid < n := by omega
      split_ifs with present
      · rw [BitVec.getLsbD_or, getLsbD_bit _ _ small, ih]
        simp [same, before]
      · rw [ih]
        simp [before]

theorem present_iff (t2lm : T2lmInfo) {tid : Nat} (small : tid < 8) :
    presenceIndicator t2lm &&& (1#8 <<< tid) ≠ 0 ↔
      t2lm.hwLinkMapTid tid ≠ 0 ∨ t2lm.ieeeLinkMapTid tid ≠ 0 := by
  have told : (presenceIndicator t2lm).getLsbD tid =
      decide (t2lm.hwLinkMapTid tid ≠ 0 ∨ t2lm.ieeeLinkMapTid tid ≠ 0) := by
    rw [presenceIndicator, t2lmMaxNumTids, presence_prefix t2lm 8 tid small]
    simp [small]
  constructor
  · intro set
    by_contra absent
    apply set
    apply BitVec.eq_of_getLsbD_eq
    intro i inside
    rw [BitVec.getLsbD_and, getLsbD_bit _ _ inside]
    by_cases same : i = tid
    · subst same
      rw [told, decide_eq_false absent, Bool.false_and]
      exact (BitVec.getLsbD_zero).symm
    · simp [same]
  · intro present zero
    have bit := congrArg (·.getLsbD tid) zero
    simp only [BitVec.getLsbD_and, told, present] at bit
    rw [getLsbD_bit _ _ small] at bit
    simp at bit

theorem presence_get (t2lm : T2lmInfo) :
    (BitField.get (BitField.set (controlFlags t2lm) 8 8 ((presenceIndicator t2lm).setWidth 16))
      8 8).setWidth 8 = presenceIndicator t2lm := by
  rw [BitField.get_set _ _ (by decide)]
  apply BitVec.eq_of_getLsbD_eq
  intro i inside
  rw [BitVec.getLsbD_setWidth, BitVec.getLsbD_and, BitVec.getLsbD_setWidth, BitField.getLsbD_mask]
  simp [inside, show i < 16 by omega]

/-! ## What one element carries -/

/-- The mappings that an element has room for. The presence indicator also counts the TIDs that
only have a hardware link map, for which no map is written. -/
structure Sendable (vdevMlme : Option U16) (t2lm : T2lmInfo) : Prop where
  timed : t2lm.mappingSwitchTimePresent = true → vdevMlme.isSome = true
  duration : t2lm.expectedDurationPresent = true → t2lm.expectedDuration.toNat < 16777216
  octet : t2lm.defaultLinkMapping = false → t2lm.linkMappingSize = true →
    ∀ tid < t2lmMaxNumTids, (t2lm.ieeeLinkMapTid tid).toNat < 256
  mapped : t2lm.defaultLinkMapping = false →
    ∀ tid < t2lmMaxNumTids, t2lm.hwLinkMapTid tid ≠ 0 → t2lm.ieeeLinkMapTid tid ≠ 0

/-- The mapping got back: with the switch time of the vdev, and with the link maps unless it is
the default mapping. -/
structure Carried (vdevMlme : Option U16) (t2lm got : T2lmInfo) : Prop where
  direction : got.direction = t2lm.direction
  default : got.defaultLinkMapping = t2lm.defaultLinkMapping
  timePresent : got.mappingSwitchTimePresent = t2lm.mappingSwitchTimePresent
  durationPresent : got.expectedDurationPresent = t2lm.expectedDurationPresent
  time : t2lm.mappingSwitchTimePresent = true → vdevMlme = some got.mappingSwitchTime
  duration : t2lm.expectedDurationPresent = true → got.expectedDuration = t2lm.expectedDuration
  maps : ∀ tid < t2lmMaxNumTids, got.ieeeLinkMapTid tid =
    if t2lm.defaultLinkMapping then 0 else t2lm.ieeeLinkMapTid tid

/-! ## The fields of an element -/

def controlBytes (t2lm : T2lmInfo) : List U8 :=
  if t2lm.defaultLinkMapping then [(controlFlags t2lm).setWidth 8]
  else htole16 (BitField.set (controlFlags t2lm) 8 8 ((presenceIndicator t2lm).setWidth 16))

def timeBytes (t2lm : T2lmInfo) (time : U16) : List U8 :=
  if t2lm.mappingSwitchTimePresent then htole16 time else []

def durationField (t2lm : T2lmInfo) : List U8 :=
  if t2lm.expectedDurationPresent then durationBytes t2lm.expectedDuration else []

def mapsField (t2lm : T2lmInfo) : List U8 :=
  if t2lm.defaultLinkMapping then [] else (putLinkMaps t2lm (List.range t2lmMaxNumTids)).1

def fieldBytes (t2lm : T2lmInfo) (time : U16) : List U8 :=
  controlBytes t2lm ++ (timeBytes t2lm time ++ (durationField t2lm ++ mapsField t2lm))

theorem linkMapBytes_length (oneOctet : Bool) (map : U16) :
    (linkMapBytes oneOctet map).length = if oneOctet then 1 else 2 := by
  cases oneOctet <;> rfl

def T2lmInfo.mapSize (t2lm : T2lmInfo) : Nat := if t2lm.linkMappingSize then 1 else 2

theorem putLinkMaps_length (t2lm : T2lmInfo) (tids : List Nat) (few : tids.length ≤ 8) :
    (putLinkMaps t2lm tids).2.toNat ≤ tids.length ∧
    (putLinkMaps t2lm tids).1.length = (putLinkMaps t2lm tids).2.toNat * t2lm.mapSize := by
  induction tids with
  | nil => exact ⟨le_refl _, by simp [putLinkMaps]⟩
  | cons tid tids ih =>
    obtain ⟨bound, length⟩ := ih (Nat.le_of_succ_le few)
    simp only [putLinkMaps]
    by_cases zero : t2lm.ieeeLinkMapTid tid = 0
    · rw [if_pos zero]
      exact ⟨Nat.le_succ_of_le bound, length⟩
    · have counted : ((putLinkMaps t2lm tids).2 + 1).toNat =
          (putLinkMaps t2lm tids).2.toNat + 1 := by
        rw [BitVec.toNat_add]
        simp only [List.length_cons] at few
        exact Nat.mod_eq_of_lt (by simp; omega)
      rw [if_neg zero, List.length_append, linkMapBytes_length, length, counted, Nat.succ_mul,
        Nat.add_comm (_ * _)]
      exact ⟨Nat.succ_le_succ bound, rfl⟩

def Draft.Announces (draft : Draft) (bytes : List U8) : Prop :=
  draft.bytes = bytes ∧ draft.elemLen.toNat = 1 + bytes.length

theorem Draft.Announces.put {draft : Draft} {bytes more : List U8} {count : U8}
    (announces : draft.Announces bytes) (counted : count.toNat = more.length)
    (fits : bytes.length + more.length < 255) :
    (draft.put more count).Announces (bytes ++ more) := by
  refine ⟨by rw [Draft.put, announces.1], ?_⟩
  rw [Draft.put, BitVec.toNat_add, announces.2, counted, List.length_append,
    Nat.mod_eq_of_lt (by omega)]
  omega

theorem mapsField_length (t2lm : T2lmInfo) : (mapsField t2lm).length ≤ 16 := by
  unfold mapsField
  split_ifs with default
  · exact Nat.zero_le _
  · obtain ⟨bound, length⟩ := putLinkMaps_length t2lm (List.range t2lmMaxNumTids) (by decide)
    rw [length]
    have few : (putLinkMaps t2lm (List.range t2lmMaxNumTids)).2.toNat ≤ 8 := bound
    unfold T2lmInfo.mapSize
    split_ifs <;> omega

theorem controlBytes_length (t2lm : T2lmInfo) :
    (controlBytes t2lm).length = if t2lm.defaultLinkMapping then 1 else 2 := by
  unfold controlBytes
  split_ifs <;> rfl

theorem timeBytes_length (t2lm : T2lmInfo) (time : U16) :
    (timeBytes t2lm time).length = if t2lm.mappingSwitchTimePresent then 2 else 0 := by
  unfold timeBytes
  split_ifs <;> rfl

theorem durationField_length (t2lm : T2lmInfo) :
    (durationField t2lm).length = if t2lm.expectedDurationPresent then 3 else 0 := by
  unfold durationField
  split_ifs <;> rfl

def drafted (t2lm : T2lmInfo) (time : U16) : Draft :=
  let draft : Draft := { bytes := [], elemLen := 1 }
  let draft := draft.put (controlBytes t2lm) (if t2lm.defaultLinkMapping then 1 else 2)
  let draft := draft.put (timeBytes t2lm time) (if t2lm.mappingSwitchTimePresent then 2 else 0)
  let draft := draft.put (durationField t2lm) (if t2lm.expectedDurationPresent then 3 else 0)
  draft.put (mapsField t2lm)
    (if t2lm.defaultLinkMapping then 0
     else
       let numTids := (putLinkMaps t2lm (List.range t2lmMaxNumTids)).2
       if t2lm.linkMappingSize then numTids else numTids * 2)

theorem Draft.put_nothing (draft : Draft) : draft.put [] 0#8 = draft := by
  simp [Draft.put]

theorem addT2lmInfoIe_drafted {vdevMlme : Option U16} {t2lm : T2lmInfo} {time : U16}
    (timed : t2lm.mappingSwitchTimePresent = true → vdevMlme = some time) :
    addT2lmInfoIe vdevMlme t2lm =
      elemIdExtnElem :: (drafted t2lm time).elemLen :: extnElemIdT2lm ::
        (drafted t2lm time).bytes := by
  unfold addT2lmInfoIe drafted controlBytes timeBytes durationField mapsField
  cases present : t2lm.mappingSwitchTimePresent with
  | false =>
    simp only [Bool.false_eq_true, if_false]
    split_ifs <;> simp [Draft.put_nothing]
  | true =>
    rw [timed present]
    simp only [if_true, Option.map_some]
    split_ifs <;> simp [Draft.put_nothing]

theorem mapsField_count (t2lm : T2lmInfo) :
    (if t2lm.defaultLinkMapping then 0
     else
       let numTids := (putLinkMaps t2lm (List.range t2lmMaxNumTids)).2
       if t2lm.linkMappingSize then numTids else numTids * 2).toNat = (mapsField t2lm).length := by
  obtain ⟨bound, length⟩ := putLinkMaps_length t2lm (List.range t2lmMaxNumTids) (by decide)
  have few : (putLinkMaps t2lm (List.range t2lmMaxNumTids)).2.toNat ≤ 8 := bound
  unfold mapsField
  cases t2lm.defaultLinkMapping with
  | true => rfl
  | false =>
    simp only [Bool.false_eq_true, if_false, length, T2lmInfo.mapSize]
    split_ifs
    · omega
    · rw [BitVec.toNat_mul]
      exact Nat.mod_eq_of_lt (show _ * 2 < 256 by omega)

theorem drafted_announces (t2lm : T2lmInfo) (time : U16) :
    (drafted t2lm time).Announces (fieldBytes t2lm time) := by
  have maps := mapsField_length t2lm
  have control : (if t2lm.defaultLinkMapping then 1 else 2 : U8).toNat =
      (controlBytes t2lm).length := by
    rw [controlBytes_length]
    split_ifs <;> rfl
  have timeField : (if t2lm.mappingSwitchTimePresent then 2 else 0 : U8).toNat =
      (timeBytes t2lm time).length := by
    rw [timeBytes_length]
    split_ifs <;> rfl
  have duration : (if t2lm.expectedDurationPresent then 3 else 0 : U8).toNat =
      (durationField t2lm).length := by
    rw [durationField_length]
    split_ifs <;> rfl
  have controlSmall : (controlBytes t2lm).length ≤ 2 := by
    rw [controlBytes_length]
    split_ifs <;> omega
  have timeSmall : (timeBytes t2lm time).length ≤ 2 := by
    rw [timeBytes_length]
    split_ifs <;> omega
  have durationSmall : (durationField t2lm).length ≤ 3 := by
    rw [durationField_length]
    split_ifs <;> omega
  have start : Draft.Announces { bytes := [], elemLen := 1 } [] := ⟨rfl, rfl⟩
  have timed := (start.put control (by simp; omega)).put timeField (by simp; omega)
  have whole := (timed.put duration (by simp; omega)).put (mapsField_count t2lm)
    (by simp; omega)
  simp only [List.nil_append, List.append_assoc] at whole
  exact whole

/-! ## Parsing the fields -/

theorem parseSwitchTime_field {ieLen : Nat} {t2lm info : T2lmInfo} {parsed : Nat}
    {time : U16} {rest : List U8}
    (same : info.mappingSwitchTimePresent = t2lm.mappingSwitchTimePresent)
    (fits : parsed + (timeBytes t2lm time).length ≤ ieLen) :
    parseSwitchTime ieLen info { parsed := parsed, rest := timeBytes t2lm time ++ rest } =
      some ({ info with mappingSwitchTime :=
                if t2lm.mappingSwitchTimePresent then time else info.mappingSwitchTime },
        { parsed := parsed + (timeBytes t2lm time).length, rest := rest }) := by
  unfold parseSwitchTime
  simp only [same]
  cases present : t2lm.mappingSwitchTimePresent with
  | false =>
    cases info
    simpa [timeBytes, present] using same.trans present
  | true =>
    simp only [timeBytes, present, if_true, htole16, List.length_cons, List.length_nil] at fits ⊢
    rw [if_neg (by omega)]
    simp [le16ToCpu_htole16, Cursor.skip]

theorem parseDuration_field {ieLen : Nat} {t2lm info : T2lmInfo} {parsed : Nat}
    {rest : List U8}
    (same : info.expectedDurationPresent = t2lm.expectedDurationPresent)
    (small : t2lm.expectedDurationPresent = true → t2lm.expectedDuration.toNat < 16777216)
    (fits : parsed + (durationField t2lm).length ≤ ieLen) :
    parseDuration ieLen info { parsed := parsed, rest := durationField t2lm ++ rest } =
      some ({ info with expectedDuration :=
                if t2lm.expectedDurationPresent then t2lm.expectedDuration
                else info.expectedDuration },
        { parsed := parsed + (durationField t2lm).length, rest := rest }) := by
  unfold parseDuration
  simp only [same]
  cases present : t2lm.expectedDurationPresent with
  | false =>
    cases info
    simpa [durationField, present] using same.trans present
  | true =>
    simp only [durationField, present, if_true, durationBytes, List.length_cons,
      List.length_nil, expectedDurationSize] at fits ⊢
    rw [if_neg (by omega)]
    simp [durationOfBytes_bytes (small present), Cursor.skip]

def readMaps (t2lm : T2lmInfo) (tids : List Nat) (maps : Nat → U16) : Nat → U16 := fun tid =>
  if tid ∈ tids ∧ t2lm.ieeeLinkMapTid tid ≠ 0 then t2lm.ieeeLinkMapTid tid else maps tid

theorem parseLinkMaps_present {ieLen : Nat} {t2lm info : T2lmInfo} {presence : U8} {tid : Nat}
    {tids : List Nat} {parsed : Nat} {rest : List U8} (present : presence &&& (1#8 <<< tid) ≠ 0)
    (octet : t2lm.linkMappingSize = true → (t2lm.ieeeLinkMapTid tid).toNat < 256)
    (same : info.linkMappingSize = t2lm.linkMappingSize) (fits : parsed + t2lm.mapSize ≤ ieLen) :
    parseLinkMaps ieLen presence (tid :: tids) info
        { parsed := parsed
          rest := linkMapBytes t2lm.linkMappingSize (t2lm.ieeeLinkMapTid tid) ++ rest } =
      parseLinkMaps ieLen presence tids
        { info with ieeeLinkMapTid :=
            Function.update info.ieeeLinkMapTid tid (t2lm.ieeeLinkMapTid tid) }
        { parsed := parsed + t2lm.mapSize, rest := rest } := by
  rw [parseLinkMaps, if_neg present]
  simp only [same]
  cases size : t2lm.linkMappingSize with
  | false =>
    simp only [T2lmInfo.mapSize, size, Bool.false_eq_true, if_false] at fits ⊢
    rw [if_neg (by omega)]
    simp [linkMapBytes, htole16, le16ToCpu_htole16, Cursor.skip]
  | true =>
    have small := octet size
    have read : ((t2lm.ieeeLinkMapTid tid).setWidth 8).setWidth 16 = t2lm.ieeeLinkMapTid tid := by
      apply BitVec.eq_of_toNat_eq
      simp only [BitVec.toNat_setWidth]
      omega
    simp only [T2lmInfo.mapSize, size, if_true] at fits ⊢
    rw [if_neg (by omega)]
    simp [linkMapBytes, Cursor.skip, read]

theorem parseLinkMaps_field {ieLen : Nat} {t2lm : T2lmInfo} {presence : U8} {tids : List Nat}
    (told : ∀ tid ∈ tids, presence &&& (1#8 <<< tid) ≠ 0 ↔ t2lm.ieeeLinkMapTid tid ≠ 0)
    (octet : t2lm.linkMappingSize = true →
      ∀ tid ∈ tids, (t2lm.ieeeLinkMapTid tid).toNat < 256)
    (distinct : tids.Nodup) {info : T2lmInfo} {parsed : Nat} {rest : List U8}
    (same : info.linkMappingSize = t2lm.linkMappingSize)
    (fits : parsed + (putLinkMaps t2lm tids).1.length ≤ ieLen) :
    parseLinkMaps ieLen presence tids info
        { parsed := parsed, rest := (putLinkMaps t2lm tids).1 ++ rest } =
      some ({ info with ieeeLinkMapTid := readMaps t2lm tids info.ieeeLinkMapTid },
        { parsed := parsed + (putLinkMaps t2lm tids).1.length, rest := rest }) := by
  induction tids generalizing info parsed with
  | nil =>
    have maps : readMaps t2lm [] info.ieeeLinkMapTid = info.ieeeLinkMapTid := by
      funext tid
      simp [readMaps]
    rw [maps]
    rfl
  | cons tid tids ih =>
    obtain ⟨fresh, distinct⟩ := List.nodup_cons.mp distinct
    have told' := fun tid' later => told tid' (List.mem_cons_of_mem tid later)
    have octet' := fun size tid' later => octet size tid' (List.mem_cons_of_mem tid later)
    by_cases zero : t2lm.ieeeLinkMapTid tid = 0
    · have absent : presence &&& (1#8 <<< tid) = 0 :=
        not_not.mp (mt (told tid List.mem_cons_self).mp (not_not.mpr zero))
      simp only [putLinkMaps, zero, if_true] at fits ⊢
      rw [parseLinkMaps, if_pos absent, ih told' octet' distinct same fits]
      have maps : readMaps t2lm tids info.ieeeLinkMapTid =
          readMaps t2lm (tid :: tids) info.ieeeLinkMapTid := by
        funext other
        grind [readMaps]
      rw [maps]
    · have present := (told tid List.mem_cons_self).mpr zero
      have width : (linkMapBytes t2lm.linkMappingSize (t2lm.ieeeLinkMapTid tid)).length =
          t2lm.mapSize := linkMapBytes_length _ _
      simp only [putLinkMaps, zero, if_false, List.length_append, width, List.append_assoc]
        at fits ⊢
      rw [parseLinkMaps_present present (fun size => octet size tid List.mem_cons_self) same
          (by omega),
        ih told' octet' distinct
          (show T2lmInfo.linkMappingSize
            { info with
              ieeeLinkMapTid :=
                Function.update info.ieeeLinkMapTid tid (t2lm.ieeeLinkMapTid tid) } = _ from same)
          (by omega)]
      have maps : readMaps t2lm tids
            (Function.update info.ieeeLinkMapTid tid (t2lm.ieeeLinkMapTid tid)) =
          readMaps t2lm (tid :: tids) info.ieeeLinkMapTid := by
        funext other
        grind [readMaps, Function.update_apply]
      simp only [maps, Nat.add_assoc]

def gotten (t2lm : T2lmInfo) (time : U16) : T2lmInfo where
  direction := t2lm.direction
  defaultLinkMapping := t2lm.defaultLinkMapping
  mappingSwitchTimePresent := t2lm.mappingSwitchTimePresent
  expectedDurationPresent := t2lm.expectedDurationPresent
  mappingSwitchTime := if t2lm.mappingSwitchTimePresent then time else 0
  expectedDuration := if t2lm.expectedDurationPresent then t2lm.expectedDuration else 0
  ieeeLinkMapTid :=
    if t2lm.defaultLinkMapping then fun _ => 0
    else readMaps t2lm (List.range t2lmMaxNumTids) fun _ => 0
  hwLinkMapTid := fun _ => 0
  linkMappingSize := t2lm.linkMappingSize

theorem gotten_carried {vdevMlme : Option U16} {t2lm : T2lmInfo} {time : U16}
    (timed : t2lm.mappingSwitchTimePresent = true → vdevMlme = some time) :
    Carried vdevMlme t2lm (gotten t2lm time) where
  direction := rfl
  default := rfl
  timePresent := rfl
  durationPresent := rfl
  time present := by
    simp only [gotten, present, if_true]
    exact timed present
  duration present := if_pos present
  maps tid listed := by
    have inside : tid ∈ List.range t2lmMaxNumTids := List.mem_range.mpr listed
    simp only [gotten]
    split_ifs with default
    · rfl
    · simp only [readMaps, inside, true_and]
      split_ifs with nonzero
      · rfl
      · exact (not_not.mp nonzero).symm

theorem parseFields_gotten {vdevMlme : Option U16} {t2lm : T2lmInfo} {time control : U16}
    (sendable : Sendable vdevMlme t2lm)
    (flags : parseControl control t2lm.direction .zero = flagsOnly t2lm)
    (presence : t2lm.defaultLinkMapping = false →
      (BitField.get control 8 8).setWidth 8 = presenceIndicator t2lm)
    {parsed : Nat} {rest : List U8} :
    parseFields (parsed + (timeBytes t2lm time ++ (durationField t2lm ++ mapsField t2lm)).length)
        control (parseControl control t2lm.direction .zero)
        { parsed := parsed
          rest := timeBytes t2lm time ++ (durationField t2lm ++ (mapsField t2lm ++ rest)) } =
      some (gotten t2lm time) := by
  have timePresent : (flagsOnly t2lm).mappingSwitchTimePresent = t2lm.mappingSwitchTimePresent :=
    rfl
  simp only [List.length_append]
  unfold parseFields
  rw [flags, parseSwitchTime_field timePresent (by omega)]
  simp only [Option.bind_eq_bind, Option.bind_some]
  generalize timed : ({ flagsOnly t2lm with mappingSwitchTime := if t2lm.mappingSwitchTimePresent
    then time else (flagsOnly t2lm).mappingSwitchTime } : T2lmInfo) = withTime
  have durationPresent : withTime.expectedDurationPresent = t2lm.expectedDurationPresent :=
    timed ▸ rfl
  rw [parseDuration_field durationPresent sendable.duration (by omega)]
  simp only [Option.bind_some]
  generalize lasting : ({ withTime with expectedDuration := if t2lm.expectedDurationPresent
    then t2lm.expectedDuration else withTime.expectedDuration } : T2lmInfo) = withDuration
  have isDefault : withTime.defaultLinkMapping = t2lm.defaultLinkMapping := timed ▸ rfl
  have size : withDuration.linkMappingSize = t2lm.linkMappingSize := by
    subst lasting timed
    rfl
  rw [isDefault]
  cases default : t2lm.defaultLinkMapping with
  | true =>
    have none : mapsField t2lm = [] := by simp [mapsField, default]
    simp only [if_true, none, List.length_nil]
    rw [if_neg (by omega)]
    subst lasting timed
    simp [gotten, default, flagsOnly]
  | false =>
    have maps : mapsField t2lm = (putLinkMaps t2lm (List.range t2lmMaxNumTids)).1 := by
      simp [mapsField, default]
    have told : ∀ tid ∈ List.range t2lmMaxNumTids,
        presenceIndicator t2lm &&& (1#8 <<< tid) ≠ 0 ↔ t2lm.ieeeLinkMapTid tid ≠ 0 := by
      intro tid listed
      have small : tid < t2lmMaxNumTids := List.mem_range.mp listed
      rw [present_iff t2lm small]
      exact ⟨fun either => either.elim (sendable.mapped default tid small) id, .inr⟩
    simp only [Bool.false_eq_true, if_false, presence default, maps]
    rw [parseLinkMaps_field told
      (fun size tid listed => sendable.octet default size tid (List.mem_range.mp listed))
      List.nodup_range size (by omega)]
    simp only [Option.bind_some]
    rw [if_neg (by omega)]
    subst lasting timed
    simp [gotten, default, flagsOnly]

theorem control_read (t2lm : T2lmInfo) (more : List U8) (ieLen : Nat)
    (long : t2lm.defaultLinkMapping = false → t2lmCtrlSize < ieLen) :
    let field := controlBytes t2lm ++ more
    let control : U16 :=
      if t2lmCtrlSize < ieLen then le16ToCpu (field.getD 0 0) (field.getD 1 0)
      else (field.getD 0 0).setWidth 16
    (∀ index bits, index + bits ≤ 8 →
      BitField.get control index bits = BitField.get (controlFlags t2lm) index bits) ∧
    (t2lm.defaultLinkMapping = false →
      (BitField.get control 8 8).setWidth 8 = presenceIndicator t2lm) := by
  cases default : t2lm.defaultLinkMapping with
  | false =>
    simp only [controlBytes, default, Bool.false_eq_true, if_false, long default, if_true,
      htole16, List.cons_append, List.getD_cons_zero, List.getD_cons_succ, le16ToCpu_htole16]
    refine ⟨fun index bits low => BitField.get_set_of_disjoint _ _ (.inl low), fun _ => ?_⟩
    exact presence_get t2lm
  | true =>
    refine ⟨fun index bits low => ?_, fun other => nomatch other⟩
    apply BitVec.eq_of_getLsbD_eq
    intro i _
    rw [BitField.getLsbD_get, BitField.getLsbD_get]
    by_cases near : i < bits
    · have first : index + i < 8 := by omega
      simp only [controlBytes, default, if_true, List.cons_append, List.nil_append,
        List.getD_cons_zero, List.getD_cons_succ]
      split_ifs
      · simp [le16ToCpu, first, show index + i < 16 by omega]
      · simp [first, show index + i < 16 by omega]
    · simp [near]

theorem parseT2lmInfo_element {vdevMlme : Option U16} {t2lm : T2lmInfo} {time : U16}
    (listed : t2lm.direction ∈ directions) (sendable : Sendable vdevMlme t2lm)
    (timed : t2lm.mappingSwitchTimePresent = true → vdevMlme = some time) (rest : List U8) :
    parseT2lmInfo (addT2lmInfoIe vdevMlme t2lm ++ rest) = .ok (gotten t2lm time) := by
  obtain ⟨bytes, length⟩ := drafted_announces t2lm time
  have width := controlBytes_length t2lm
  have ieLen : (drafted t2lm time).elemLen.toNat = 1 + (controlBytes t2lm).length +
      (timeBytes t2lm time ++ (durationField t2lm ++ mapsField t2lm)).length := by
    rw [length, fieldBytes, List.length_append]
    omega
  have enough : ¬(drafted t2lm time).elemLen.toNat < t2lmCtrlSize := by
    rw [ieLen, width, t2lmCtrlSize]
    split_ifs <;> omega
  have long : t2lm.defaultLinkMapping = false →
      t2lmCtrlSize < (drafted t2lm time).elemLen.toNat := by
    intro default
    rw [ieLen, width, default, t2lmCtrlSize]
    simp only [Bool.false_eq_true, if_false]
    omega
  obtain ⟨flags, presence⟩ := control_read t2lm
    (timeBytes t2lm time ++ (durationField t2lm ++ (mapsField t2lm ++ rest))) _ long
  have field : (elemIdExtnElem :: (drafted t2lm time).elemLen :: extnElemIdT2lm ::
      fieldBytes t2lm time ++ rest).drop sizeofExtnIeHeader =
        controlBytes t2lm ++
          (timeBytes t2lm time ++ (durationField t2lm ++ (mapsField t2lm ++ rest))) := by
    simp [sizeofExtnIeHeader, fieldBytes]
  rw [addT2lmInfoIe_drafted timed, bytes]
  unfold parseT2lmInfo
  simp only [List.cons_append, List.getD_cons_succ, List.getD_cons_zero] at field ⊢
  rw [field, if_neg enough]
  generalize controlled : (if t2lmCtrlSize < (drafted t2lm time).elemLen.toNat then
    le16ToCpu _ _ else BitVec.setWidth 16 _ : U16) = control at flags presence ⊢
  have direction : Direction.ofBits (BitField.get control 0 2) = some t2lm.direction := by
    rw [flags 0 2 (by decide), (controlFlags_get t2lm).1, ofBits_code listed]
  have isDefault : (parseControl control t2lm.direction .zero).defaultLinkMapping =
      t2lm.defaultLinkMapping := by
    rw [parseControl_flags flags]
    rfl
  rw [direction]
  simp only [isDefault]
  rw [← width, if_neg (by omega), List.drop_left, ieLen,
    parseFields_gotten sendable (parseControl_flags flags) presence]

/-! ## A frame of elements -/

def vdevTime (vdevMlme : Option U16) : U16 := vdevMlme.getD 0

theorem Sendable.timed_vdev {vdevMlme : Option U16} {t2lm : T2lmInfo}
    (sendable : Sendable vdevMlme t2lm) (present : t2lm.mappingSwitchTimePresent = true) :
    vdevMlme = some (vdevTime vdevMlme) := by
  obtain ⟨time, known⟩ := Option.isSome_iff_exists.mp (sendable.timed present)
  rw [known]
  rfl

theorem element_length {vdevMlme : Option U16} {t2lm : T2lmInfo}
    (sendable : Sendable vdevMlme t2lm) :
    (addT2lmInfoIe vdevMlme t2lm).length =
      ((addT2lmInfoIe vdevMlme t2lm).getD 1 0).toNat + sizeofIeHeader := by
  obtain ⟨bytes, length⟩ := drafted_announces t2lm (vdevTime vdevMlme)
  rw [addT2lmInfoIe_drafted sendable.timed_vdev]
  simp only [List.length_cons, List.getD_cons_succ, List.getD_cons_zero, bytes, length,
    sizeofIeHeader]
  omega

theorem element_length_ge {vdevMlme : Option U16} {t2lm : T2lmInfo}
    (sendable : Sendable vdevMlme t2lm) :
    sizeofExtnIeHeader ≤ (addT2lmInfoIe vdevMlme t2lm).length := by
  rw [addT2lmInfoIe_drafted sendable.timed_vdev]
  simp [sizeofExtnIeHeader]

theorem parseElements_step {vdevMlme : Option U16} {info : T2lmInfo}
    (listed : info.direction ∈ directions) (sendable : Sendable vdevMlme info)
    {frameLen n parsed : Nat} {rest : List U8}
    (fits : parsed + (addT2lmInfoIe vdevMlme info).length ≤ frameLen) (t2lm : Negotiation) :
    parseElements frameLen (n + 1) parsed (addT2lmInfoIe vdevMlme info ++ rest) t2lm =
      parseElements frameLen n (parsed + (addT2lmInfoIe vdevMlme info).length) rest
        (Function.update t2lm info.direction (gotten info (vdevTime vdevMlme))) := by
  have header := element_length_ge sendable
  have size := element_length sendable
  have read := parseT2lmInfo_element listed sendable sendable.timed_vdev rest
  have ids : (addT2lmInfoIe vdevMlme info ++ rest).getD 0 0 = elemIdExtnElem ∧
      (addT2lmInfoIe vdevMlme info ++ rest).getD 2 0 = extnElemIdT2lm ∧
      (addT2lmInfoIe vdevMlme info ++ rest).getD 1 0 =
        (addT2lmInfoIe vdevMlme info).getD 1 0 := by
    rw [addT2lmInfoIe_drafted sendable.timed_vdev]
    exact ⟨rfl, rfl, rfl⟩
  have drop : (addT2lmInfoIe vdevMlme info ++ rest).drop (addT2lmInfoIe vdevMlme info).length =
      rest := List.drop_left
  simp only [sizeofExtnIeHeader] at header
  rw [parseElements, if_neg (by omega), if_neg (by omega),
    if_neg (by simp only [sizeofExtnIeHeader]; omega), if_pos ⟨ids.1, ids.2.1⟩]
  simp only [ids.2.2, ← size, read, drop]
  rw [if_neg (by omega)]
  rfl

theorem parseElements_frame {vdevMlme : Option U16} {infos : List T2lmInfo}
    (sendable : ∀ info ∈ infos, info.direction ∈ directions ∧ Sendable vdevMlme info)
    {frameLen n parsed : Nat} (few : infos.length < n) (bytes : frameLen ≠ 0)
    (fits : frameLen = parsed + (infos.flatMap (addT2lmInfoIe vdevMlme)).length)
    (t2lm : Negotiation) :
    parseElements frameLen n parsed (infos.flatMap (addT2lmInfoIe vdevMlme)) t2lm =
      (some .success, infos.foldl (fun t2lm info =>
        Function.update t2lm info.direction (gotten info (vdevTime vdevMlme))) t2lm) := by
  induction infos generalizing n parsed t2lm with
  | nil =>
    obtain ⟨n, rfl⟩ := Nat.exists_eq_succ_of_ne_zero (Nat.ne_of_gt few)
    simp only [List.flatMap_nil, List.length_nil, Nat.add_zero] at fits
    rw [parseElements, if_neg bytes, if_pos fits]
    rfl
  | cons info infos ih =>
    obtain ⟨n, rfl⟩ := Nat.exists_eq_succ_of_ne_zero (Nat.ne_of_gt (Nat.lt_of_le_of_lt
      (Nat.zero_le _) few))
    obtain ⟨listed, sends⟩ := sendable info List.mem_cons_self
    rw [List.flatMap_cons, List.length_append] at fits
    rw [List.flatMap_cons, parseElements_step listed sends (by omega),
      ih (fun info' later => sendable info' (List.mem_cons_of_mem info later))
        (Nat.lt_of_succ_lt_succ few) (by omega)]
    rfl

/-! ## The negotiation -/

/-- The negotiations that the elements can carry: each mapping is filed under its direction, there
is one at least, and each fits its element. -/
structure Encodable (vdevMlme : Option U16) (t2lm : Negotiation) : Prop where
  filed : ∀ dir ∈ directions, (t2lm dir).direction = dir ∨ (t2lm dir).direction = .invalid
  given : ∃ dir ∈ directions, (t2lm dir).direction ≠ .invalid
  sendable : ∀ dir ∈ directions, (t2lm dir).direction ≠ .invalid → Sendable vdevMlme (t2lm dir)

/-- The bytes that the length fields of the elements announce, with the two before each length. -/
def announcedLength (vdevMlme : Option U16) (t2lm : Negotiation) : Nat :=
  (directions.map fun dir =>
    if (t2lm dir).direction ≠ .invalid then
      ((addT2lmInfoIe vdevMlme (t2lm dir)).getD 1 0).toNat + sizeofIeHeader
    else 0).sum

def Returned (vdevMlme : Option U16) (t2lm got : T2lmInfo) : Prop :=
  if t2lm.direction = .invalid then got.direction = .invalid else Carried vdevMlme t2lm got

def given (t2lm : Negotiation) : List T2lmInfo :=
  (directions.filter fun dir => (t2lm dir).direction ≠ .invalid).map t2lm

theorem flatMap_given (vdevMlme : Option U16) (t2lm : Negotiation) :
    (directions.flatMap fun dir =>
      if (t2lm dir).direction ≠ .invalid then addT2lmInfoIe vdevMlme (t2lm dir) else []) =
      (given t2lm).flatMap (addT2lmInfoIe vdevMlme) := by
  unfold given
  induction directions with
  | nil => rfl
  | cons dir dirs ih =>
    rw [List.flatMap_cons, ih]
    by_cases valid : (t2lm dir).direction ≠ .invalid
    · rw [if_pos valid, List.filter_cons_of_pos (by simpa using valid), List.map_cons,
        List.flatMap_cons]
    · rw [if_neg valid, List.filter_cons_of_neg (by simpa using valid), List.nil_append]

theorem Encodable.written_length {vdevMlme : Option U16} {t2lm : Negotiation}
    (encodable : Encodable vdevMlme t2lm) {frm : List U8}
    (written : addT2lmIe vdevMlme t2lm = some frm) :
    frm.length = announcedLength vdevMlme t2lm := by
  unfold addT2lmIe at written
  split_ifs at written
  cases written
  rw [List.length_flatMap, announcedLength]
  congr 1
  apply List.map_congr_left
  intro dir listed
  split_ifs with valid
  · exact element_length (encodable.sendable dir listed valid)
  · rfl

theorem given_few {t2lm : Negotiation}
    (filed : ∀ dir ∈ directions, (t2lm dir).direction = dir ∨ (t2lm dir).direction = .invalid)
    (oneKind : bothKinds t2lm = false) : (given t2lm).length < directions.length := by
  have dl := filed .dl (by decide)
  have ul := filed .ul (by decide)
  have bidi := filed .bidi (by decide)
  simp only [bothKinds] at oneKind
  rcases dl with dl | dl <;> rcases ul with ul | ul <;> rcases bidi with bidi | bidi
  all_goals first
    | simp [given, directions, dl, ul, bidi]; done
    | exact absurd oneKind (by simp [dl, ul, bidi])

theorem foldl_given {vdevMlme : Option U16} {t2lm : Negotiation} {dirs : List Direction}
    (distinct : dirs.Nodup)
    (filed : ∀ dir ∈ dirs, (t2lm dir).direction = dir ∨ (t2lm dir).direction = .invalid)
    (start : Negotiation) (dir : Direction) :
    ((dirs.filter fun dir => (t2lm dir).direction ≠ .invalid).map t2lm).foldl
        (fun entries info =>
          Function.update entries info.direction (gotten info (vdevTime vdevMlme))) start dir =
      if dir ∈ dirs ∧ (t2lm dir).direction ≠ .invalid then gotten (t2lm dir) (vdevTime vdevMlme)
      else start dir := by
  induction dirs generalizing start with
  | nil => simp
  | cons first dirs ih =>
    obtain ⟨fresh, distinct⟩ := List.nodup_cons.mp distinct
    have filed' := fun dir later => filed dir (List.mem_cons_of_mem first later)
    by_cases valid : (t2lm first).direction ≠ .invalid
    · have own : (t2lm first).direction = first :=
        (filed first List.mem_cons_self).resolve_right valid
      rw [List.filter_cons_of_pos (by simpa using valid), List.map_cons, List.foldl_cons,
        ih distinct filed', own]
      by_cases same : dir = first
      · subst same
        rw [if_neg fun both => fresh both.1, if_pos ⟨List.mem_cons_self, valid⟩,
          Function.update_self]
      · rw [Function.update_of_ne same]
        simp [same]
    · rw [List.filter_cons_of_neg (by simpa using valid), ih distinct filed']
      by_cases same : dir = first
      · subst same
        rw [if_neg fun both => fresh both.1, if_neg fun both => valid both.2]
      · simp [same]

theorem negotiation_returned {vdevMlme : Option U16} {t2lm : Negotiation} {frm : List U8}
    (encodable : Encodable vdevMlme t2lm) (written : addT2lmIe vdevMlme t2lm = some frm)
    (before : Negotiation) :
    frm.length = announcedLength vdevMlme t2lm ∧
    (parseT2lmIe before frm frm.length).1 = .success ∧
    ∀ dir ∈ directions,
      Returned vdevMlme (t2lm dir) ((parseT2lmIe before frm frm.length).2 dir) := by
  have length := encodable.written_length written
  unfold addT2lmIe at written
  split_ifs at written with both
  have frame : frm = (given t2lm).flatMap (addT2lmInfoIe vdevMlme) := by
    rw [← flatMap_given]
    exact (Option.some.inj written).symm
  have sendable : ∀ info ∈ given t2lm,
      info.direction ∈ directions ∧ Sendable vdevMlme info := by
    intro info among
    obtain ⟨dir, listed, rfl⟩ := List.mem_map.mp among
    obtain ⟨listed, valid⟩ := List.mem_filter.mp listed
    have valid : (t2lm dir).direction ≠ .invalid := by simpa using valid
    have own := (encodable.filed dir listed).resolve_right valid
    exact ⟨own.symm ▸ listed, encodable.sendable dir listed valid⟩
  have bytes : frm.length ≠ 0 := by
    obtain ⟨dir, listed, valid⟩ := encodable.given
    have among : t2lm dir ∈ given t2lm :=
      List.mem_map_of_mem (List.mem_filter.mpr ⟨listed, by simpa using valid⟩)
    have header := element_length_ge (encodable.sendable dir listed valid)
    intro empty
    rw [frame] at empty
    have none := List.flatMap_eq_nil_iff.mp (List.length_eq_zero_iff.mp empty) _ among
    rw [none] at header
    exact absurd header (by decide)
  have parsed : parseT2lmIe before frm frm.length = (.success, (given t2lm).foldl
      (fun entries info =>
        Function.update entries info.direction (gotten info (vdevTime vdevMlme)))
      before.invalidate) := by
    have elements := parseElements_frame sendable
      (given_few encodable.filed (by simpa using both)) bytes (by rw [Nat.zero_add, frame])
      before.invalidate
    rw [← frame] at elements
    rw [parseT2lmIe, elements]
  refine ⟨length, by rw [parsed], fun dir listed => ?_⟩
  rw [parsed]
  simp only [given]
  rw [foldl_given (by decide) encodable.filed]
  unfold Returned
  split_ifs with invalid valid valid
  · exact absurd invalid valid.2
  · rfl
  · exact gotten_carried (encodable.sendable dir listed invalid).timed_vdev
  · exact absurd ⟨listed, invalid⟩ valid

/-! ## A default mapping with a switch time -/

def timedInfo : T2lmInfo :=
  { T2lmInfo.zero with
    direction := .bidi
    defaultLinkMapping := true
    mappingSwitchTimePresent := true
    mappingSwitchTime := 5 }

def timedNegotiation : Negotiation := fun dir =>
  if dir = .bidi then timedInfo else { T2lmInfo.zero with direction := .invalid }

theorem timed_encodable : Encodable (some 7) timedNegotiation where
  filed dir listed := by cases dir <;> simp_all [directions, timedNegotiation, timedInfo]
  given := ⟨.bidi, by decide, by decide⟩
  sendable dir _ valid := by
    have bidi : dir = .bidi := by
      by_contra other
      exact valid (by simp [timedNegotiation, other])
    subst bidi
    exact
      { timed := fun _ => rfl
        duration := fun present => nomatch present
        octet := fun chosen => nomatch chosen
        mapped := fun chosen => nomatch chosen }

/-- It is got back with the switch time 7 of the vdev. -/
theorem timed_returned :
    ∃ frm, addT2lmIe (some 7) timedNegotiation = some frm ∧
      frm.length = announcedLength (some 7) timedNegotiation ∧
      (parseT2lmIe timedNegotiation frm frm.length).1 = .success ∧
      ∀ dir ∈ directions, Returned (some 7) (timedNegotiation dir)
        ((parseT2lmIe timedNegotiation frm frm.length).2 dir) :=
  ⟨_, rfl, negotiation_returned timed_encodable rfl timedNegotiation⟩

/-- The elements do not carry the switch time of the mapping itself. -/
theorem switchTime_not_returned :
    ¬∀ (vdevMlme : Option U16) (t2lm before : Negotiation) (frm : List U8),
      Encodable vdevMlme t2lm → addT2lmIe vdevMlme t2lm = some frm → ∀ dir ∈ directions,
        (t2lm dir).direction ≠ .invalid → (t2lm dir).mappingSwitchTimePresent = true →
          ((parseT2lmIe before frm frm.length).2 dir).mappingSwitchTime =
            (t2lm dir).mappingSwitchTime := by
  intro returned
  have time := returned (some 7) timedNegotiation timedNegotiation _ timed_encodable rfl .bidi
    (by decide) (by decide) rfl
  exact absurd time (by decide)

end VendorModules.T2lm
