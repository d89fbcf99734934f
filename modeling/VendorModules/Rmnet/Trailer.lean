import Mathlib.Data.List.GetD
import VendorModules.Lib.Octets

namespace VendorModules.Rmnet.Trailer

open Lib Lib.EndAround Lib.Octets

/-! The check of a packet with the sum that a trailer brings of all its bytes. The kernel runs on a
little-endian processor, and words of the packet are read as it reads them. -/

def IPPROTO_TCP : UInt8 := 6

def IPPROTO_UDP : UInt8 := 17

def be16 (n : Nat) : List UInt8 := [UInt8.ofNat (n / 256), UInt8.ofNat n]

def pseudoHeader4 (saddr daddr : List UInt8) (len : Nat) (proto : UInt8) : List UInt8 :=
  saddr ++ (daddr ++ (0 :: proto :: be16 len))

def pseudoHeader6 (saddr daddr : List UInt8) (len : Nat) (proto : UInt8) : List UInt8 :=
  saddr ++ (daddr ++ (be16 (len / 2 ^ 16) ++ (be16 len ++ [0, 0, 0, proto])))

theorem sums_not_not (bytes : List UInt8) :
    Sums (littleWords bytes) (~~~(~~~(littleWords bytes).foldl EndAround.add 0)) := by
  have sums := modEq_foldl (littleWords bytes) 0
  rw [show (0 : BitVec 16).toNat = 0 from rfl, Nat.cast_zero, zero_add] at sums
  rwa [Sums, BitVec.not_not]

/-- The checksum functions of the kernel: complements of one's-complement sums of words. A sum
may be held as any number that stands for it. -/
structure CsumLib where
  ipFastCsum : List UInt8 → BitVec 16
  ipComputeCsum : List UInt8 → BitVec 16
  csumTcpudpMagic (saddr daddr : List UInt8) (len : BitVec 32) (proto : UInt8) : BitVec 16
  csumIpv6Magic (saddr daddr : List UInt8) (len : BitVec 32) (proto : UInt8) : BitVec 16
  sums_ipFastCsum : ∀ header, header.length % 4 = 0 →
    Sums (littleWords header) (~~~ipFastCsum header)
  sums_ipComputeCsum : ∀ bytes, Sums (littleWords bytes) (~~~ipComputeCsum bytes)
  sums_csumTcpudpMagic : ∀ saddr daddr len proto, saddr.length = 4 → daddr.length = 4 →
    len.toNat < 2 ^ 16 →
    Sums (littleWords (pseudoHeader4 saddr daddr len.toNat proto))
      (~~~csumTcpudpMagic saddr daddr len proto)
  sums_csumIpv6Magic : ∀ saddr daddr len proto, saddr.length = 16 → daddr.length = 16 →
    Sums (littleWords (pseudoHeader6 saddr daddr len.toNat proto))
      (~~~csumIpv6Magic saddr daddr len proto)

def CsumLib.summing : CsumLib where
  ipFastCsum header := ~~~(littleWords header).foldl EndAround.add 0
  ipComputeCsum bytes := ~~~(littleWords bytes).foldl EndAround.add 0
  csumTcpudpMagic saddr daddr len proto :=
    ~~~(littleWords (pseudoHeader4 saddr daddr len.toNat proto)).foldl EndAround.add 0
  csumIpv6Magic saddr daddr len proto :=
    ~~~(littleWords (pseudoHeader6 saddr daddr len.toNat proto)).foldl EndAround.add 0
  sums_ipFastCsum header _ := sums_not_not header
  sums_ipComputeCsum bytes := sums_not_not bytes
  sums_csumTcpudpMagic _ _ _ _ _ _ _ := sums_not_not _
  sums_csumIpv6Magic _ _ _ _ _ _ := sums_not_not _

inductive TrailerErrno
  | EOPNOTSUPP
  | EPROTONOSUPPORT
  | EINVAL
  deriving DecidableEq, Repr

def le16 (bytes : List UInt8) (i : Nat) : BitVec 16 :=
  (bytes.getD (i + 1) 0).toBitVec ++ (bytes.getD i 0).toBitVec

def ntohs (word : BitVec 16) : BitVec 16 := swap word

def csum16Add (csum addend : BitVec 16) : BitVec 16 :=
  let res := csum + addend
  res + if res < addend then 1 else 0

def csum16Sub (csum addend : BitVec 16) : BitVec 16 := csum16Add csum (~~~addend)

/-- `rmnet_map_get_csum_field` -/
def getCsumField (protocol : UInt8) (txporthdr : List UInt8) : Option (BitVec 16) :=
  if protocol = IPPROTO_TCP then some (le16 txporthdr 16)
  else if protocol = IPPROTO_UDP then some (le16 txporthdr 6)
  else none

def compareCsum (protocol : UInt8) (csumField pseudoCsum : BitVec 16) : Except TrailerErrno Unit :=
  let addend := ntohs csumField
  let csumTemp := ~~~csum16Sub pseudoCsum addend
  let csumValueFinal :=
    if csumTemp = 0 then
      if protocol = IPPROTO_UDP then ~~~csumTemp
      else if protocol = IPPROTO_TCP ∧ csumField = 0xFFFF then ~~~csumTemp
      else csumTemp
    else csumTemp
  if csumValueFinal = ntohs csumField then .ok () else .error .EINVAL

/-- `rmnet_map_ipv4_dl_csum_trailer` -/
def ipv4DlCsumTrailer (lib : CsumLib) (data : List UInt8) (csumValue : BitVec 16) :
    Except TrailerErrno Unit :=
  let fragOff := ntohs (le16 data 6)
  let ihl := (data.getD 0 0).toNat % 16
  let protocol := data.getD 9 0
  if fragOff &&& 0x2000 ≠ 0 ∨ 0 < (fragOff &&& 0x1FFF).toNat then .error .EOPNOTSUPP
  else
    match getCsumField protocol (data.drop (ihl * 4)) with
    | none => .error .EPROTONOSUPPORT
    | some csumField =>
      if csumField = 0 ∧ protocol = IPPROTO_UDP then .ok ()
      else
        let csumValue := ~~~ntohs csumValue
        let hdrCsum := ~~~lib.ipFastCsum (data.take (ihl * 4))
        let ipPayloadCsum := csum16Sub csumValue hdrCsum
        let pseudoCsum := ~~~lib.csumTcpudpMagic ((data.drop 12).take 4) ((data.drop 16).take 4)
          (BitVec.ofNat 32 (ntohs (le16 data 2)).toNat - BitVec.ofNat 32 (ihl * 4)) protocol
        compareCsum protocol csumField (csum16Add ipPayloadCsum (ntohs pseudoCsum))

/-- `rmnet_map_ipv6_dl_csum_trailer`. Here the sum of the header is brought into the order of the
trailer's. -/
def ipv6DlCsumTrailer (lib : CsumLib) (data : List UInt8) (csumValue : BitVec 16) :
    Except TrailerErrno Unit :=
  let nexthdr := data.getD 6 0
  let txporthdr := data.drop 40
  match getCsumField nexthdr txporthdr with
  | none => .error .EPROTONOSUPPORT
  | some csumField =>
    let csumValue := ~~~ntohs csumValue
    let ip6HdrCsum := ~~~ntohs (lib.ipComputeCsum (data.take 40))
    let ip6PayloadCsum := csum16Sub csumValue ip6HdrCsum
    let length := if nexthdr = IPPROTO_UDP then ntohs (le16 txporthdr 4) else ntohs (le16 data 4)
    let pseudoCsum := ~~~lib.csumIpv6Magic ((data.drop 8).take 16) ((data.drop 24).take 16)
      (BitVec.ofNat 32 length.toNat) nexthdr
    compareCsum nexthdr csumField (csum16Add ip6PayloadCsum (ntohs pseudoCsum))

/-! ### Packets, and when their checksums are right -/

def Carries (protocol : UInt8) (payload : List UInt8) : Prop :=
  protocol = IPPROTO_TCP ∧ 20 ≤ payload.length ∨ protocol = IPPROTO_UDP ∧ 8 ≤ payload.length

def segmentLen (protocol : UInt8) (payload : List UInt8) : Nat :=
  if protocol = IPPROTO_UDP then (ntohs (le16 payload 4)).toNat else payload.length

def segment (protocol : UInt8) (payload : List UInt8) : List UInt8 :=
  payload.take (segmentLen protocol payload)

def Unsummed (protocol : UInt8) (payload : List UInt8) : Prop :=
  protocol = IPPROTO_UDP ∧ le16 payload 6 = 0

instance (protocol : UInt8) (payload : List UInt8) : Decidable (Unsummed protocol payload) :=
  inferInstanceAs (Decidable (_ ∧ _))

def AllOnes (bytes : List UInt8) : Prop := (bigWords bytes).foldl EndAround.add 0 = 0xFFFF

structure Ipv4Packet where
  header : List UInt8
  payload : List UInt8
  ihl : header.length = (header.getD 0 0).toNat % 16 * 4
  addressed : 20 ≤ header.length
  totLen : (ntohs (le16 header 2)).toNat = header.length + payload.length
  whole : ntohs (le16 header 6) &&& 0x3FFF = 0
  carries : Carries (header.getD 9 0) payload

namespace Ipv4Packet

variable (p : Ipv4Packet)

def bytes : List UInt8 := p.header ++ p.payload

def protocol : UInt8 := p.header.getD 9 0

def pseudo (len : Nat) : List UInt8 :=
  pseudoHeader4 ((p.header.drop 12).take 4) ((p.header.drop 16).take 4) len p.protocol

def trailer : BitVec 16 := ntohs (~~~(bigWords p.bytes).foldl EndAround.add 0)

def Correct : Prop :=
  Unsummed p.protocol p.payload ∨
    AllOnes (p.pseudo (segmentLen p.protocol p.payload) ++ segment p.protocol p.payload)

def sum : ℤ :=
  big (p.pseudo (segmentLen p.protocol p.payload)) + big (segment p.protocol p.payload)

/-- What the check comes to besides: the header's sum, in the order of the processor instead of
that of the packet, and what is behind a datagram. -/
def discrepancy : ℤ :=
  (p.payload.length - segmentLen p.protocol p.payload) +
    (big p.payload - big (segment p.protocol p.payload)) - 255 * big p.header

end Ipv4Packet

structure Ipv6Packet where
  header : List UInt8
  payload : List UInt8
  fixed : header.length = 40
  payloadLen : (ntohs (le16 header 4)).toNat = payload.length
  carries : Carries (header.getD 6 0) payload

namespace Ipv6Packet

variable (p : Ipv6Packet)

def bytes : List UInt8 := p.header ++ p.payload

def protocol : UInt8 := p.header.getD 6 0

def pseudo (len : Nat) : List UInt8 :=
  pseudoHeader6 ((p.header.drop 8).take 16) ((p.header.drop 24).take 16) len p.protocol

def trailer : BitVec 16 := ntohs (~~~(bigWords p.bytes).foldl EndAround.add 0)

def Correct : Prop :=
  ¬Unsummed p.protocol p.payload ∧
    AllOnes (p.pseudo (segmentLen p.protocol p.payload) ++ segment p.protocol p.payload)

def sum : ℤ :=
  big (p.pseudo (segmentLen p.protocol p.payload)) + big (segment p.protocol p.payload)

def discrepancy : ℤ := big p.payload - big (segment p.protocol p.payload)

end Ipv6Packet

def Harmless (sum discrepancy : ℤ) : Prop :=
  discrepancy ≡ 0 [ZMOD 65535] ∨
    ¬sum ≡ 0 [ZMOD 65535] ∧ ¬sum + discrepancy ≡ 0 [ZMOD 65535]

theorem harmless_iff (sum discrepancy : ℤ) :
    Harmless sum discrepancy ↔
      (sum + discrepancy ≡ 0 [ZMOD 65535] ↔ sum ≡ 0 [ZMOD 65535]) := by
  unfold Harmless Int.ModEq
  omega

/-! ### One's-complement arithmetic in the code -/

theorem csum16Add_eq (csum addend : BitVec 16) : csum16Add csum addend = add csum addend := by
  have first := csum.isLt
  have second := addend.isLt
  have one : (1 : BitVec 16).toNat = 1 := rfl
  have none : (0 : BitVec 16).toNat = 0 := rfl
  apply BitVec.eq_of_toNat_eq
  rw [toNat_add, csum16Add]
  by_cases around : csum + addend < addend
  · have carried := BitVec.lt_def.1 around
    rw [BitVec.toNat_add] at carried
    rw [if_pos around, BitVec.toNat_add, BitVec.toNat_add, one]
    split_ifs <;> omega
  · have whole := mt BitVec.lt_def.2 around
    rw [BitVec.toNat_add] at whole
    rw [if_neg around, BitVec.toNat_add, BitVec.toNat_add, none]
    split_ifs <;> omega

theorem csum16Sub_modEq (csum addend : BitVec 16) :
    ((csum16Sub csum addend).toNat : ℤ) ≡ csum.toNat - addend.toNat [ZMOD 65535] := by
  rw [csum16Sub, csum16Add_eq, sub_eq_add_neg]
  exact (modEq_add csum (~~~addend)).trans ((modEq_not addend).add_left _)

theorem ntohs_eq_zero_iff (word : BitVec 16) : (ntohs word).toNat = 0 ↔ word = 0 := by
  have small := word.isLt
  rw [ntohs, toNat_swap, ← BitVec.toNat_inj, show (0 : BitVec 16).toNat = 0 from rfl]
  omega

theorem ntohs_eq_ones_iff (word : BitVec 16) : (ntohs word).toNat = 65535 ↔ word = 0xFFFF := by
  have small := word.isLt
  rw [ntohs, toNat_swap, ← BitVec.toNat_inj, show (0xFFFF : BitVec 16).toNat = 65535 from rfl]
  omega

theorem compareCsum_ok_iff {protocol : UInt8}
    (known : protocol = IPPROTO_TCP ∨ protocol = IPPROTO_UDP) (csumField pseudoCsum : BitVec 16) :
    compareCsum protocol csumField pseudoCsum = .ok () ↔
      ¬(protocol = IPPROTO_UDP ∧ csumField = 0) ∧ (pseudoCsum.toNat : ℤ) ≡ 0 [ZMOD 65535] := by
  have pseudo := pseudoCsum.isLt
  have field := (ntohs csumField).isLt
  have zero := ntohs_eq_zero_iff csumField
  have ones := ntohs_eq_ones_iff csumField
  have sum : (csum16Sub pseudoCsum (ntohs csumField)).toNat =
      if 65536 ≤ pseudoCsum.toNat + (65535 - (ntohs csumField).toNat) then
        pseudoCsum.toNat + (65535 - (ntohs csumField).toNat) - 65535
      else pseudoCsum.toNat + (65535 - (ntohs csumField).toNat) := by
    rw [csum16Sub, csum16Add_eq, toNat_add, BitVec.toNat_not]
  have decided : ∀ final : BitVec 16,
      (if final = ntohs csumField then (.ok () : Except TrailerErrno Unit) else .error .EINVAL) =
        .ok () ↔ final.toNat = (ntohs csumField).toNat := by
    intro final
    rw [BitVec.toNat_inj]
    split <;> simp_all
  unfold compareCsum
  dsimp only
  rw [decided, Int.ModEq]
  simp only [← zero, ← ones]
  generalize csum16Sub pseudoCsum (ntohs csumField) = temp at sum
  have complement : (~~~temp).toNat = 65535 - temp.toNat := BitVec.toNat_not
  have none : ~~~temp = 0 ↔ (~~~temp).toNat = 0 := BitVec.toNat_inj.symm
  simp only [none, BitVec.not_not]
  rcases known with rfl | rfl
  · have other : ¬IPPROTO_TCP = IPPROTO_UDP := by decide
    rw [if_neg other, and_iff_right (fun udp => other udp.1)]
    simp only [true_and]
    split_ifs at sum ⊢ with first second third <;> omega
  · rw [if_pos rfl]
    simp only [true_and]
    split_ifs at sum ⊢ with first second <;> omega

theorem ntohs_sums {bytes : List UInt8} {word : BitVec 16} (sums : Sums (littleWords bytes) word) :
    ((ntohs word).toNat : ℤ) ≡ big bytes [ZMOD 65535] := by
  rw [Sums, total_littleWords] at sums
  exact (swap_modEq word).trans ((sums.mul_left 256).trans (big_modEq bytes).symm)

theorem not_ntohs_sums {bytes : List UInt8} {word : BitVec 16}
    (sums : Sums (littleWords bytes) (~~~word)) :
    ((~~~ntohs word).toNat : ℤ) ≡ big bytes [ZMOD 65535] := by
  rw [ntohs, not_swap]
  exact ntohs_sums sums

theorem trailer_modEq (bytes : List UInt8) :
    ((~~~ntohs (ntohs (~~~(bigWords bytes).foldl EndAround.add 0))).toNat : ℤ) ≡
      big bytes [ZMOD 65535] := by
  rw [ntohs, ntohs, swap_swap, BitVec.not_not]
  have sums := modEq_foldl (bigWords bytes) 0
  rwa [total_bigWords, show (0 : BitVec 16).toNat = 0 from rfl, Nat.cast_zero, zero_add] at sums

theorem toNat_ofNat_uInt8 (n : Nat) : (UInt8.ofNat n).toNat = n % 256 := UInt8.toNat_ofNat'

theorem big_be16 {n : Nat} (small : n < 65536) : big (be16 n) = n := by
  simp only [be16, big, toNat_ofNat_uInt8]
  omega

theorem length_pseudoHeader4 {saddr daddr : List UInt8} (source : saddr.length = 4)
    (destination : daddr.length = 4) (len : Nat) (proto : UInt8) :
    (pseudoHeader4 saddr daddr len proto).length = 12 := by
  simp [pseudoHeader4, be16, source, destination]

theorem big_pseudoHeader4 {saddr daddr : List UInt8} (source : saddr.length = 4)
    (destination : daddr.length = 4) {len : Nat} (small : len < 65536) (proto : UInt8) :
    big (pseudoHeader4 saddr daddr len proto) = big saddr + big daddr + proto.toNat + len := by
  rw [pseudoHeader4, big_append _ _ (by omega), big_append _ _ (by omega)]
  have last : big (0 :: proto :: be16 len) = proto.toNat + big (be16 len) := by
    rw [big, show (0 : UInt8).toNat = 0 from rfl]
    omega
  rw [last, big_be16 small]
  omega

theorem length_pseudoHeader6 {saddr daddr : List UInt8} (source : saddr.length = 16)
    (destination : daddr.length = 16) (len : Nat) (proto : UInt8) :
    (pseudoHeader6 saddr daddr len proto).length = 40 := by
  simp [pseudoHeader6, be16, source, destination]

theorem allOnes_iff {pseudo segment : List UInt8} (even : pseudo.length % 2 = 0)
    {proto : UInt8} (inside : proto ∈ pseudo) (known : proto ≠ 0) :
    AllOnes (pseudo ++ segment) ↔ big pseudo + big segment ≡ 0 [ZMOD 65535] := by
  have whole := big_append pseudo segment even
  have pos := (pos_of_mem (List.mem_append_left segment inside) known).1
  rw [AllOnes, foldl_add_eq_ones_iff (by rwa [total_bigWords]), total_bigWords, whole]

theorem Carries.known {protocol : UInt8} {payload : List UInt8}
    (carries : Carries protocol payload) :
    (protocol = IPPROTO_TCP ∨ protocol = IPPROTO_UDP) ∧ protocol ≠ 0 := by
  rcases carries with ⟨rfl, -⟩ | ⟨rfl, -⟩
  · exact ⟨.inl rfl, by decide⟩
  · exact ⟨.inr rfl, by decide⟩

theorem Carries.getCsumField {protocol : UInt8} {payload : List UInt8}
    (carries : Carries protocol payload) :
    ∃ csumField, Trailer.getCsumField protocol payload = some csumField ∧
      (protocol = IPPROTO_UDP ∧ csumField = 0 ↔ Unsummed protocol payload) := by
  unfold Trailer.getCsumField Unsummed
  rcases carries with ⟨rfl, -⟩ | ⟨rfl, -⟩
  · refine ⟨_, if_pos rfl, ?_⟩
    constructor
    · rintro ⟨other, -⟩
      exact absurd other (by decide)
    · rintro ⟨other, -⟩
      exact absurd other (by decide)
  · exact ⟨_, by rw [if_neg (by decide), if_pos rfl], Iff.rfl⟩

theorem le16_append {header : List UInt8} {i : Nat} (inside : i + 1 < header.length)
    (payload : List UInt8) : le16 (header ++ payload) i = le16 header i := by
  rw [le16, le16, List.getD_append _ _ _ _ inside, List.getD_append _ _ _ _ (by omega)]

theorem slice_append {header : List UInt8} {i n : Nat} (inside : i + n ≤ header.length)
    (payload : List UInt8) :
    ((header ++ payload).drop i).take n = (header.drop i).take n := by
  rw [List.drop_append_of_le_length (by omega), List.take_append_of_le_length]
  rw [List.length_drop]
  omega

theorem length_slice {header : List UInt8} {i n : Nat} (inside : i + n ≤ header.length) :
    ((header.drop i).take n).length = n := by
  rw [List.length_take, List.length_drop]
  omega

/-! ### The two versions -/

namespace Ipv4Packet

variable (lib : CsumLib) (p : Ipv4Packet)

theorem correct_iff :
    p.Correct ↔ Unsummed p.protocol p.payload ∨ p.sum ≡ 0 [ZMOD 65535] := by
  have addressed := p.addressed
  have even : (p.pseudo (segmentLen p.protocol p.payload)).length % 2 = 0 := by
    rw [pseudo, length_pseudoHeader4 (length_slice (by omega)) (length_slice (by omega))]
  have inside : p.protocol ∈ p.pseudo (segmentLen p.protocol p.payload) := by
    simp [pseudo, pseudoHeader4]
  rw [Correct, allOnes_iff even inside p.carries.known.2, sum]

theorem segmentLen_lt : segmentLen p.protocol p.payload < 65536 := by
  have totLen := p.totLen
  have small := (ntohs (le16 p.header 2)).isLt
  unfold segmentLen
  split
  · exact (ntohs (le16 p.payload 4)).isLt
  · omega

theorem pseudoCsum_modEq :
    ((csum16Add (csum16Sub (~~~ntohs p.trailer) (~~~lib.ipFastCsum p.header))
        (ntohs (~~~lib.csumTcpudpMagic ((p.header.drop 12).take 4) ((p.header.drop 16).take 4)
          (BitVec.ofNat 32 p.payload.length) p.protocol))).toNat : ℤ) ≡
      p.sum + p.discrepancy [ZMOD 65535] := by
  have addressed := p.addressed
  have totLen := p.totLen
  have small := (ntohs (le16 p.header 2)).isLt
  have length : (BitVec.ofNat 32 p.payload.length).toNat = p.payload.length := by
    rw [BitVec.toNat_ofNat]
    omega
  have aligned : p.header.length % 4 = 0 := by
    rw [p.ihl]
    omega
  have whole := trailer_modEq p.bytes
  have header := lib.sums_ipFastCsum p.header aligned
  rw [Sums, total_littleWords] at header
  have pseudo := ntohs_sums (lib.sums_csumTcpudpMagic ((p.header.drop 12).take 4)
    ((p.header.drop 16).take 4) (BitVec.ofNat 32 p.payload.length) p.protocol
    (length_slice (by omega)) (length_slice (by omega)) (by omega))
  rw [length, big_pseudoHeader4 (length_slice (by omega)) (length_slice (by omega)) (by omega)]
    at pseudo
  have sum : p.sum + p.discrepancy = big p.bytes - 256 * big p.header +
      (big ((p.header.drop 12).take 4) + big ((p.header.drop 16).take 4) + p.protocol.toNat +
        p.payload.length) := by
    rw [Ipv4Packet.sum, discrepancy, Ipv4Packet.pseudo, bytes,
      big_pseudoHeader4 (length_slice (by omega)) (length_slice (by omega)) p.segmentLen_lt,
      big_append p.header p.payload (by omega)]
    ring
  rw [csum16Add_eq, sum]
  refine (modEq_add _ _).trans (Int.ModEq.add ?_ pseudo)
  refine (csum16Sub_modEq _ _).trans (Int.ModEq.sub whole ?_)
  exact header.trans (little_modEq p.header)

theorem ipv4DlCsumTrailer_ok_iff :
    ipv4DlCsumTrailer lib p.bytes p.trailer = .ok () ↔
      Unsummed p.protocol p.payload ∨ p.sum + p.discrepancy ≡ 0 [ZMOD 65535] := by
  have addressed := p.addressed
  have totLen := p.totLen
  have small := (ntohs (le16 p.header 2)).isLt
  have fragment : ∀ bit : BitVec 16, 0x3FFF &&& bit = bit →
      ntohs (le16 p.header 6) &&& bit = 0 := by
    intro bit part
    rw [← part, ← BitVec.and_assoc, p.whole]
    exact BitVec.zero_and
  have first : p.bytes.getD 0 0 = p.header.getD 0 0 := List.getD_append _ _ _ _ (by omega)
  have protocol : p.bytes.getD 9 0 = p.protocol := List.getD_append _ _ _ _ (by omega)
  have front : p.bytes.take ((p.header.getD 0 0).toNat % 16 * 4) = p.header := by
    rw [← p.ihl]
    exact List.take_left
  have behind : p.bytes.drop ((p.header.getD 0 0).toNat % 16 * 4) = p.payload := by
    rw [← p.ihl]
    exact List.drop_left
  have length : BitVec.ofNat 32 (ntohs (le16 p.header 2)).toNat -
      BitVec.ofNat 32 ((p.header.getD 0 0).toNat % 16 * 4) =
        BitVec.ofNat 32 p.payload.length := by
    rw [totLen, ← p.ihl, BitVec.ofNat_add, add_sub_cancel_left]
  obtain ⟨csumField, found, unsummed⟩ := p.carries.getCsumField
  have pseudo := p.pseudoCsum_modEq lib
  rw [ipv4DlCsumTrailer]
  simp only [first, protocol, front, behind]
  rw [bytes, le16_append (by omega), le16_append (by omega), slice_append (by omega),
    slice_append (by omega), fragment 0x2000 (by decide), fragment 0x1FFF (by decide), length,
    if_neg (by decide)]
  have found : getCsumField p.protocol p.payload = some csumField := found
  rw [found]
  dsimp only
  by_cases none : csumField = 0 ∧ p.protocol = IPPROTO_UDP
  · rw [if_pos none]
    exact iff_of_true rfl (.inl (unsummed.1 ⟨none.2, none.1⟩))
  · have summed : ¬Unsummed p.protocol p.payload := fun empty =>
      none ⟨(unsummed.2 empty).2, (unsummed.2 empty).1⟩
    have known : p.protocol = IPPROTO_TCP ∨ p.protocol = IPPROTO_UDP := p.carries.known.1
    rw [if_neg none, compareCsum_ok_iff known, or_iff_right summed,
      and_iff_right fun empty => none ⟨empty.2, empty.1⟩]
    exact ⟨fun zero => pseudo.symm.trans zero, fun zero => pseudo.trans zero⟩

end Ipv4Packet

namespace Ipv6Packet

variable (lib : CsumLib) (p : Ipv6Packet)

theorem correct_iff :
    p.Correct ↔ ¬Unsummed p.protocol p.payload ∧ p.sum ≡ 0 [ZMOD 65535] := by
  have fixed := p.fixed
  have even : (p.pseudo (segmentLen p.protocol p.payload)).length % 2 = 0 := by
    rw [pseudo, length_pseudoHeader6 (length_slice (by omega)) (length_slice (by omega))]
  have inside : p.protocol ∈ p.pseudo (segmentLen p.protocol p.payload) := by
    simp [pseudo, pseudoHeader6]
  rw [Correct, allOnes_iff even inside p.carries.known.2, sum]

theorem pseudoCsum_modEq :
    ((csum16Add (csum16Sub (~~~ntohs p.trailer) (~~~ntohs (lib.ipComputeCsum p.header)))
        (ntohs (~~~lib.csumIpv6Magic ((p.header.drop 8).take 16) ((p.header.drop 24).take 16)
          (BitVec.ofNat 32 (segmentLen p.protocol p.payload)) p.protocol))).toNat : ℤ) ≡
      p.sum + p.discrepancy [ZMOD 65535] := by
  have fixed := p.fixed
  have payloadLen := p.payloadLen
  have small := (ntohs (le16 p.header 4)).isLt
  have length : (BitVec.ofNat 32 (segmentLen p.protocol p.payload)).toNat =
      segmentLen p.protocol p.payload := by
    have field := (ntohs (le16 p.payload 4)).isLt
    rw [BitVec.toNat_ofNat, segmentLen]
    split <;> omega
  have whole := trailer_modEq p.bytes
  have header := not_ntohs_sums (lib.sums_ipComputeCsum p.header)
  have pseudo := ntohs_sums (lib.sums_csumIpv6Magic ((p.header.drop 8).take 16)
    ((p.header.drop 24).take 16) (BitVec.ofNat 32 (segmentLen p.protocol p.payload)) p.protocol
    (length_slice (by omega)) (length_slice (by omega)))
  rw [length] at pseudo
  have sum : p.sum + p.discrepancy =
      big p.bytes - big p.header + big (p.pseudo (segmentLen p.protocol p.payload)) := by
    rw [Ipv6Packet.sum, discrepancy, bytes, big_append p.header p.payload (by omega)]
    ring
  rw [csum16Add_eq, sum]
  refine (modEq_add _ _).trans (Int.ModEq.add ?_ pseudo)
  exact (csum16Sub_modEq _ _).trans (whole.sub header)

theorem ipv6DlCsumTrailer_ok_iff :
    ipv6DlCsumTrailer lib p.bytes p.trailer = .ok () ↔
      ¬Unsummed p.protocol p.payload ∧ p.sum + p.discrepancy ≡ 0 [ZMOD 65535] := by
  have fixed := p.fixed
  have payloadLen := p.payloadLen
  have nexthdr : p.bytes.getD 6 0 = p.protocol := List.getD_append _ _ _ _ (by omega)
  have front : p.bytes.take 40 = p.header := by
    rw [← p.fixed]
    exact List.take_left
  have behind : p.bytes.drop 40 = p.payload := by
    rw [← p.fixed]
    exact List.drop_left
  have length : (if p.protocol = IPPROTO_UDP then ntohs (le16 p.payload 4)
      else ntohs (le16 p.header 4)).toNat = segmentLen p.protocol p.payload := by
    rw [segmentLen]
    split
    · rfl
    · exact payloadLen
  obtain ⟨csumField, found, unsummed⟩ := p.carries.getCsumField
  have found : getCsumField p.protocol p.payload = some csumField := found
  have unsummed : p.protocol = IPPROTO_UDP ∧ csumField = 0 ↔ Unsummed p.protocol p.payload :=
    unsummed
  have known : p.protocol = IPPROTO_TCP ∨ p.protocol = IPPROTO_UDP := p.carries.known.1
  have pseudo := p.pseudoCsum_modEq lib
  rw [ipv6DlCsumTrailer]
  simp only [nexthdr, front, behind]
  rw [found]
  dsimp only
  rw [bytes, le16_append (by omega), slice_append (by omega), slice_append (by omega), length,
    compareCsum_ok_iff known, unsummed]
  exact and_congr_right' ⟨fun zero => pseudo.symm.trans zero, fun zero => pseudo.trans zero⟩

end Ipv6Packet

theorem Ipv4Packet.discrepancy_modEq_zero_iff (p : Ipv4Packet)
    (full : segmentLen p.protocol p.payload = p.payload.length) :
    p.discrepancy ≡ 0 [ZMOD 65535] ↔ big p.header ≡ 0 [ZMOD 257] := by
  rw [discrepancy, segment, full, List.take_length, sub_self, sub_self, Int.ModEq, Int.ModEq]
  omega

/-- The check says of a packet what the protocol's rule says exactly if there is no checksum, or
the discrepancy of the sums does no harm. -/
theorem dlCsumTrailer_iff (lib : CsumLib) (p4 : Ipv4Packet) (p6 : Ipv6Packet) :
    ((ipv4DlCsumTrailer lib p4.bytes p4.trailer = .ok () ↔ p4.Correct) ↔
        Unsummed p4.protocol p4.payload ∨ Harmless p4.sum p4.discrepancy) ∧
      ((ipv6DlCsumTrailer lib p6.bytes p6.trailer = .ok () ↔ p6.Correct) ↔
        Unsummed p6.protocol p6.payload ∨ Harmless p6.sum p6.discrepancy) := by
  rw [p4.ipv4DlCsumTrailer_ok_iff, p4.correct_iff, p6.ipv6DlCsumTrailer_ok_iff, p6.correct_iff,
    harmless_iff, harmless_iff]
  constructor
  · by_cases empty : Unsummed p4.protocol p4.payload
    · exact iff_of_true (iff_of_true (.inl empty) (.inl empty)) (.inl empty)
    · rw [or_iff_right empty, or_iff_right empty, or_iff_right empty]
  · by_cases empty : Unsummed p6.protocol p6.payload
    · exact iff_of_true (iff_of_false (fun sum => sum.1 empty) fun sum => sum.1 empty) (.inl empty)
    · rw [and_iff_right empty, and_iff_right empty, or_iff_right empty]

def wronglyHeaded : Ipv4Packet where
  header := [0x45, 0, 0, 40, 0, 0, 0, 0, 64, 6, 0, 0, 10, 0, 0, 1, 10, 0, 0, 2]
  payload := [0, 0, 0, 0, 0, 0, 0, 0, 0, 0, 0, 0, 0, 0, 0, 0, 235, 226, 0, 0]
  ihl := by decide
  addressed := by decide
  totLen := by decide
  whole := by decide
  carries := .inl ⟨by decide, by decide⟩

theorem wronglyHeaded_not_ok :
    ¬(ipv4DlCsumTrailer .summing wronglyHeaded.bytes wronglyHeaded.trailer = .ok () ↔
      wronglyHeaded.Correct) := by
  rw [Ipv4Packet.ipv4DlCsumTrailer_ok_iff, Ipv4Packet.correct_iff]
  decide

end VendorModules.Rmnet.Trailer
