import VendorModules.IpaNat.Table
import VendorModules.Lib.EndAround

namespace VendorModules.IpaNat

/-! The two record formats of an IPv4 NAT table, the client's rule, and what
the hardware does with a DMA command. -/

def natInvalidProtoFieldValue : Nat := 0xFF00

def natInvalidProtocol : BitVec 8 := 0xFF

/-- `struct ipa_nat_rule`. -/
structure NatRule where
  privateIp : BitVec 32
  targetIp : BitVec 32
  nextIndex : Nat
  publicPort : BitVec 16
  privatePort : BitVec 16
  targetPort : BitVec 16
  ipChksum : BitVec 16
  ucActivationIndex : BitVec 13
  s : Bool
  redirect : Bool
  enable : Bool
  timeStamp : BitVec 24
  protocol : BitVec 8
  prevIndex : Nat
  indxTblEntry : Nat
  dstOnly : Bool
  srcOnly : Bool
  ucp : Bool
  pdnIndex : BitVec 4
  tcpUdpChksum : BitVec 16
  deriving DecidableEq, Repr

/-- `struct ipa_nat_indx_tbl_rule`. -/
structure IndxTblRule where
  tblEntry : Nat
  nextIndex : Nat
  deriving DecidableEq, Repr

/-- `ipa_nat_ipv4_rule`. -/
structure NatIpv4Rule where
  targetIp : BitVec 32
  privateIp : BitVec 32
  targetPort : BitVec 16
  privatePort : BitVec 16
  publicPort : BitVec 16
  protocol : BitVec 8
  pdnIndex : BitVec 8
  redirect : BitVec 8
  enable : BitVec 8
  timeStamp : BitVec 32
  ucActivationIndex : BitVec 16
  s : Bool
  ucp : Bool
  dstOnly : Bool
  srcOnly : Bool
  deriving DecidableEq, Repr

/-- The public addresses of the `pdns` array. -/
abbrev Pdns := Nat → BitVec 32

def NatRule.blank : NatRule where
  privateIp := 0
  targetIp := 0
  nextIndex := 0
  publicPort := 0
  privatePort := 0
  targetPort := 0
  ipChksum := 0
  ucActivationIndex := 0
  s := false
  redirect := false
  enable := false
  timeStamp := 0
  protocol := 0
  prevIndex := 0
  indxTblEntry := 0
  dstOnly := false
  srcOnly := false
  ucp := false
  pdnIndex := 0
  tcpUdpChksum := 0

def IndxTblRule.blank : IndxTblRule where
  tblEntry := 0
  nextIndex := 0

/-! ### Checksums -/

def cksumAdd (cksum part : Nat) : Nat :=
  let cksum := cksum + part
  if cksum / 65536 ≠ 0 then cksum % 65536 + 1 else cksum

def calcIpCksum (pubIpAddr privIpAddr : BitVec 32) : BitVec 16 :=
  let cksum := (pubIpAddr &&& 0xFFFF#32).toNat
  let cksum := cksumAdd cksum (pubIpAddr >>> 16).toNat
  let privIpAddr := ~~~privIpAddr
  let cksum := cksumAdd cksum (privIpAddr &&& 0xFFFF#32).toNat
  let cksum := cksumAdd cksum (privIpAddr >>> 16).toNat
  BitVec.ofNat 16 cksum

def calcTcpUdpCksum (pubIpAddr : BitVec 32) (pubPort : BitVec 16)
    (privIpAddr : BitVec 32) (privPort : BitVec 16) : BitVec 16 :=
  let cksum := (pubIpAddr &&& 0xFFFF#32).toNat
  let cksum := cksumAdd cksum (pubIpAddr >>> 16).toNat
  let cksum := cksumAdd cksum pubPort.toNat
  let privIpAddr := ~~~privIpAddr
  let cksum := cksumAdd cksum (privIpAddr &&& 0xFFFF#32).toNat
  let cksum := cksumAdd cksum (privIpAddr >>> 16).toNat
  let cksum := cksumAdd cksum (~~~privPort).toNat
  BitVec.ofNat 16 cksum

/-! ### Flags -/

/-- The layout of `ipa_nat_flags`. -/
def natFlags (ucActivationIndex : BitVec 13) (s redirect enable : Bool) : Nat :=
  ucActivationIndex.toNat + s.toNat * 8192 + redirect.toNat * 16384 +
    enable.toNat * 32768

theorem natFlags_ucActivationIndex (uc : BitVec 13) (s redirect enable : Bool) :
    BitVec.ofNat 13 (natFlags uc s redirect enable) = uc := by
  apply BitVec.eq_of_toNat_eq
  have bound := uc.isLt
  simp only [natFlags, BitVec.toNat_ofNat]
  omega

private theorem decide_bit {n : Nat} {flag : Bool} (bit : n % 2 = flag.toNat) :
    decide (n % 2 = 1) = flag := by
  cases flag with
  | false => exact decide_eq_false (by simp [bit])
  | true => exact decide_eq_true (by simp [bit])

theorem natFlags_s (uc : BitVec 13) (s redirect enable : Bool) :
    decide (natFlags uc s redirect enable / 8192 % 2 = 1) = s := by
  have bound := uc.isLt
  have sBound := Bool.toNat_le s
  exact decide_bit (by simp only [natFlags]; omega)

theorem natFlags_redirect (uc : BitVec 13) (s redirect enable : Bool) :
    decide (natFlags uc s redirect enable / 16384 % 2 = 1) = redirect := by
  have bound := uc.isLt
  have sBound := Bool.toNat_le s
  have redirectBound := Bool.toNat_le redirect
  exact decide_bit (by simp only [natFlags]; omega)

theorem natFlags_enable (uc : BitVec 13) (s redirect enable : Bool) :
    decide (natFlags uc s redirect enable / 32768 % 2 = 1) = enable := by
  have bound := uc.isLt
  have sBound := Bool.toNat_le s
  have redirectBound := Bool.toNat_le redirect
  have enableBound := Bool.toNat_le enable
  exact decide_bit (by simp only [natFlags]; omega)

/-! ### Entry interfaces -/

/-- It leaves the links, the cross reference and the `redirect`, `enable` and `time_stamp`
fields of the record alone. -/
def tableEntryCopyFromUser (pdns : Pdns) (entry : NatRule)
    (userRule : NatIpv4Rule) : NatRule :=
  let pubIpAddr := pdns userRule.pdnIndex.toNat
  { entry with
    privateIp := userRule.privateIp
    privatePort := userRule.privatePort
    protocol := userRule.protocol
    publicPort := userRule.publicPort
    targetIp := userRule.targetIp
    targetPort := userRule.targetPort
    pdnIndex := userRule.pdnIndex.setWidth 4
    ucActivationIndex := userRule.ucActivationIndex.setWidth 13
    s := userRule.s
    ucp := userRule.ucp
    dstOnly := userRule.dstOnly
    srcOnly := userRule.srcOnly
    ipChksum := calcIpCksum pubIpAddr userRule.privateIp
    tcpUdpChksum :=
      if userRule.protocol = 6 ∨ userRule.protocol = 17 then
        calcTcpUdpCksum pubIpAddr userRule.publicPort userRule.privateIp
          userRule.privatePort
      else entry.tcpUdpChksum }

def tableEntryHeadInsert (pdns : Pdns) (entry : NatRule)
    (userRule : NatIpv4Rule) : NatRule × Nat :=
  let entry := tableEntryCopyFromUser pdns entry userRule
  (entry, natFlags entry.ucActivationIndex entry.s false true)

def tableEntryTailInsert (pdns : Pdns) (entry : NatRule)
    (userRule : NatIpv4Rule) : NatRule :=
  { tableEntryCopyFromUser pdns entry userRule with enable := true }

def entryInterface (pdns : Pdns) : EntryInterface NatRule NatIpv4Rule where
  blank := NatRule.blank
  entryIsValid := fun entry => entry.enable
  entryGetNextIndex := fun entry => entry.nextIndex
  entryGetPrevIndex := fun entry _ _ _ => entry.prevIndex
  entrySetPrevIndex := fun entry _ prevIndex metaPrev _ =>
    ({ entry with prevIndex := prevIndex }, metaPrev)
  entryHeadInsert := tableEntryHeadInsert pdns
  entryTailInsert := tableEntryTailInsert pdns
  entryGetDeleteHeadDmaCommandData := fun _ _ => natInvalidProtoFieldValue

def indexEntryInterface : EntryInterface IndxTblRule Nat where
  blank := IndxTblRule.blank
  entryIsValid := fun entry => decide (entry.tblEntry ≠ 0)
  entryGetNextIndex := fun entry => entry.nextIndex
  entryGetPrevIndex := fun _ entryIndex metaPrev baseTableSize =>
    if entryIndex ≥ baseTableSize then metaPrev (entryIndex - baseTableSize)
    else 0
  entrySetPrevIndex := fun entry entryIndex prevIndex metaPrev baseTableSize =>
    (entry,
      if entryIndex ≥ baseTableSize then
        Function.update metaPrev (entryIndex - baseTableSize) prevIndex
      else metaPrev)
  entryHeadInsert := fun entry tblEntry => (entry, tblEntry)
  entryTailInsert := fun entry tblEntry => { entry with tblEntry := tblEntry }
  entryGetDeleteHeadDmaCommandData := fun _ nextEntry => nextEntry.tblEntry

/-! ### Hashes -/

def foldHash (hash : BitVec 16) (size : Nat) : Nat :=
  let hash := hash &&& BitVec.ofNat 16 size
  if hash = 0 then size else hash.toNat

/-- The table has `size + 1` base entries. -/
def dstHash (verAtLeast40 : Bool) (publicIp trgtIp : BitVec 32)
    (trgtPort publicPort : BitVec 16) (proto : BitVec 8) (size : Nat) : Nat :=
  let hash := trgtIp.setWidth 16 ^^^ (trgtIp >>> 16).setWidth 16 ^^^ trgtPort ^^^
    publicPort ^^^ proto.setWidth 16
  let hash :=
    if verAtLeast40 then
      hash ^^^ (publicIp.setWidth 16 ^^^ (publicIp >>> 16).setWidth 16)
    else hash
  foldHash hash size

def srcHash (privIp : BitVec 32) (privPort : BitVec 16) (trgtIp : BitVec 32)
    (trgtPort : BitVec 16) (proto : BitVec 8) (size : Nat) : Nat :=
  foldHash
    (privIp.setWidth 16 ^^^ (privIp >>> 16).setWidth 16 ^^^ privPort ^^^
      trgtIp.setWidth 16 ^^^ (trgtIp >>> 16).setWidth 16 ^^^ trgtPort ^^^
      proto.setWidth 16)
    size

theorem foldHash_pos (hash : BitVec 16) {size : Nat} (positive : 0 < size) :
    0 < foldHash hash size := by
  simp only [foldHash]
  split
  · exact positive
  · next nonzero =>
      refine Nat.pos_of_ne_zero fun zero => nonzero ?_
      exact BitVec.eq_of_toNat_eq zero

theorem foldHash_le (hash : BitVec 16) (size : Nat) :
    foldHash hash size ≤ size := by
  simp only [foldHash]
  split
  · exact le_rfl
  · rw [BitVec.toNat_and]
    exact Nat.and_le_right.trans
      (by rw [BitVec.toNat_ofNat]; exact Nat.mod_le _ _)

/-! ### What a DMA command does -/

/-- The hardware writes sixteen bits at a field of a NAT rule. The protocol
field is the upper half of a write that starts in the time stamp. -/
def NatRule.dmaWrite (entry : NatRule) (field : DmaField) (data : Nat) : NatRule :=
  match field with
  | .tableFlags =>
    { entry with
      ucActivationIndex := BitVec.ofNat 13 data
      s := decide (data / 8192 % 2 = 1)
      redirect := decide (data / 16384 % 2 = 1)
      enable := decide (data / 32768 % 2 = 1) }
  | .tableNextIndex => { entry with nextIndex := data }
  | .tableProtocol =>
    { entry with
      timeStamp := BitVec.ofNat 24
        (entry.timeStamp.toNat % 65536 + data % 256 * 65536)
      protocol := BitVec.ofNat 8 (data / 256) }
  | .indexTableEntry => entry
  | .indexTableNextIndex => entry

def IndxTblRule.dmaWrite (entry : IndxTblRule) (field : DmaField)
    (data : Nat) : IndxTblRule :=
  match field with
  | .indexTableEntry => { entry with tblEntry := data }
  | .indexTableNextIndex => { entry with nextIndex := data }
  | .tableFlags | .tableNextIndex | .tableProtocol => entry

end VendorModules.IpaNat

namespace VendorModules.IpaNat

open VendorModules.Lib

/-! What the checksum differences of a rule are good for. -/

/-- The checksum of `ipa_nati_calc_ip_cksum` before its low bytes are returned. -/
def ipCksum (pubIpAddr privIpAddr : BitVec 32) : Nat :=
  let cksum := (pubIpAddr &&& 0xFFFF#32).toNat
  let cksum := cksumAdd cksum (pubIpAddr >>> 16).toNat
  let privIpAddr := ~~~privIpAddr
  let cksum := cksumAdd cksum (privIpAddr &&& 0xFFFF#32).toNat
  cksumAdd cksum (privIpAddr >>> 16).toNat

/-- The checksum of `ipa_nati_calc_tcp_udp_cksum` before its low bytes are returned. -/
def tcpUdpCksum (pubIpAddr : BitVec 32) (pubPort : BitVec 16) (privIpAddr : BitVec 32)
    (privPort : BitVec 16) : Nat :=
  let cksum := (pubIpAddr &&& 0xFFFF#32).toNat
  let cksum := cksumAdd cksum (pubIpAddr >>> 16).toNat
  let cksum := cksumAdd cksum pubPort.toNat
  let privIpAddr := ~~~privIpAddr
  let cksum := cksumAdd cksum (privIpAddr &&& 0xFFFF#32).toNat
  let cksum := cksumAdd cksum (privIpAddr >>> 16).toNat
  cksumAdd cksum (~~~privPort).toNat

theorem calcIpCksum_eq (pub priv : BitVec 32) :
    calcIpCksum pub priv = BitVec.ofNat 16 (ipCksum pub priv) := rfl

theorem calcTcpUdpCksum_eq (pub priv : BitVec 32) (pubPort privPort : BitVec 16) :
    calcTcpUdpCksum pub pubPort priv privPort =
      BitVec.ofNat 16 (tcpUdpCksum pub pubPort priv privPort) := rfl

def addrWords (ipAddr : BitVec 32) : List (BitVec 16) :=
  [ipAddr.setWidth 16, (ipAddr >>> 16).setWidth 16]

/-! ### Words in the checksum -/

theorem cksumAdd_words (a b : BitVec 16) :
    cksumAdd a.toNat b.toNat = (EndAround.add a b).toNat := by
  have first := a.isLt
  have second := b.isLt
  rw [cksumAdd, EndAround.toNat_add]
  by_cases around : 65536 ≤ a.toNat + b.toNat
  · rw [if_pos (by omega), if_pos around]
    omega
  · rw [if_neg (by omega), if_neg around]

theorem toNat_and_low (value : BitVec 32) :
    (value &&& 0xFFFF#32).toNat = (value.setWidth 16).toNat := by
  rw [BitVec.toNat_and, BitVec.toNat_setWidth]
  exact Nat.and_two_pow_sub_one_eq_mod value.toNat 16

theorem toNat_shift_high (value : BitVec 32) :
    (value >>> 16).toNat = ((value >>> 16).setWidth 16).toNat := by
  have small := value.isLt
  rw [BitVec.toNat_setWidth, BitVec.toNat_ushiftRight, Nat.shiftRight_eq_div_pow]
  omega

theorem addrWords_not (ipAddr : BitVec 32) :
    addrWords (~~~ipAddr) = (addrWords ipAddr).map fun word => ~~~word := by
  have low : (~~~ipAddr).setWidth 16 = ~~~ipAddr.setWidth 16 := by
    ext i inside
    simp
  have high : (~~~ipAddr >>> 16).setWidth 16 = ~~~(ipAddr >>> 16).setWidth 16 := by
    ext i inside
    simp
    omega
  rw [addrWords, low, high]
  rfl

theorem ipCksum_eq (pub priv : BitVec 32) :
    ipCksum pub priv =
      (((addrWords pub).tail ++ (addrWords priv).map fun word => ~~~word).foldl EndAround.add
        (pub.setWidth 16)).toNat := by
  rw [ipCksum, toNat_and_low pub, toNat_shift_high pub, toNat_and_low (~~~priv),
    toNat_shift_high (~~~priv), cksumAdd_words, cksumAdd_words, cksumAdd_words, ← addrWords_not]
  rfl

theorem tcpUdpCksum_eq (pub priv : BitVec 32) (pubPort privPort : BitVec 16) :
    tcpUdpCksum pub pubPort priv privPort =
      (((addrWords pub).tail ++ [pubPort] ++ (addrWords priv ++ [privPort]).map fun word =>
        ~~~word).foldl EndAround.add (pub.setWidth 16)).toNat := by
  rw [tcpUdpCksum, toNat_and_low pub, toNat_shift_high pub, toNat_and_low (~~~priv),
    toNat_shift_high (~~~priv), cksumAdd_words, cksumAdd_words, cksumAdd_words, cksumAdd_words,
    cksumAdd_words, List.map_append, ← addrWords_not]
  rfl

/-- Each difference fits in a word. It is that of the public words and the private ones, so that
from private words to public ones it goes to the sum, and to the field on the way back. -/
theorem calcCksum_moves (pub priv : BitVec 32) (pubPort privPort : BitVec 16) :
    (ipCksum pub priv < 65536 ∧
      EndAround.Moves (addrWords priv) (addrWords pub) (calcIpCksum pub priv)) ∧
    (tcpUdpCksum pub pubPort priv privPort < 65536 ∧
      EndAround.Moves (addrWords priv ++ [privPort]) (addrWords pub ++ [pubPort])
        (calcTcpUdpCksum pub pubPort priv privPort)) := by
  constructor
  · rw [calcIpCksum_eq, ipCksum_eq, BitVec.ofNat_toNat, BitVec.setWidth_eq]
    refine ⟨BitVec.isLt _, EndAround.Moves.of_difference ?_⟩
    exact EndAround.modEq_difference (pub.setWidth 16) (addrWords pub).tail (addrWords priv)
  · rw [calcTcpUdpCksum_eq, tcpUdpCksum_eq, BitVec.ofNat_toNat, BitVec.setWidth_eq]
    refine ⟨BitVec.isLt _, EndAround.Moves.of_difference ?_⟩
    exact EndAround.modEq_difference (pub.setWidth 16) ((addrWords pub).tail ++ [pubPort])
      (addrWords priv ++ [privPort])

/-- A packet that leaves a private address: the difference is added to the field of its header. -/
theorem calcIpCksum_source_field :
    ∃ words field, EndAround.Valid (words ++ addrWords 0xC0A80102) field ∧
      ¬EndAround.Valid (words ++ addrWords 0x0A010203)
        (EndAround.add field (calcIpCksum 0x0A010203 0xC0A80102)) := by
  refine ⟨[0x4500, 0x0028, 0x0000, 0x4000, 0x4006, 0x0808, 0x0808], 0x6916, ?_, ?_⟩
  · decide +kernel
  · decide +kernel

end VendorModules.IpaNat
