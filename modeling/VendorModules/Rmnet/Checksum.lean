import VendorModules.Rmnet.Ranges
import VendorModules.Rmnet.Trailer

namespace VendorModules.Rmnet.Checksum

open Lib Lib.EndAround Lib.Octets
open Trailer (IPPROTO_TCP IPPROTO_UDP le16 CsumLib pseudoHeader4 pseudoHeader6 Carries
  segmentLen segment Unsummed AllOnes)
open FragDescriptor (Errno HeaderPtr)

/-! The check of a packet whose bytes lie in fragments, and the walk over the extension headers. -/

def csumAdd (csum addend : BitVec 32) : BitVec 32 :=
  let res := csum + addend
  res + if res < addend then 1 else 0

/-- The kernel's functions for sums of 32 bits besides: what `csum_partial` and `csum_fold` come to
modulo 65535, and that only nothing has the sum zero. -/
structure WsumLib extends CsumLib where
  csumPartial : List UInt8 → BitVec 32 → BitVec 32
  csumFold : BitVec 32 → BitVec 16
  ipFastCsum_eq_zero_iff : ∀ header, header.length % 4 = 0 →
    (ipFastCsum header = 0 ↔ (littleWords header).foldl EndAround.add 0 = 0xFFFF)
  csumPartial_modEq : ∀ bytes csum,
    ((csumPartial bytes csum).toNat : ℤ) ≡ csum.toNat + little bytes [ZMOD 65535]
  csumPartial_ne_zero : ∀ bytes csum, csum ≠ 0 → csumPartial bytes csum ≠ 0
  csumFold_eq_zero_iff : ∀ csum,
    csumFold csum = 0 ↔ csum ≠ 0 ∧ (csum.toNat : ℤ) ≡ 0 [ZMOD 65535]

theorem toNat_csumAdd (csum addend : BitVec 32) :
    (csumAdd csum addend).toNat =
      if 4294967296 ≤ csum.toNat + addend.toNat then csum.toNat + addend.toNat - 4294967295
      else csum.toNat + addend.toNat := by
  have first := csum.isLt
  have second := addend.isLt
  have one : (1 : BitVec 32).toNat = 1 := rfl
  have none : (0 : BitVec 32).toNat = 0 := rfl
  rw [csumAdd]
  by_cases around : csum + addend < addend
  · have carried := BitVec.lt_def.1 around
    rw [BitVec.toNat_add] at carried
    rw [if_pos around, BitVec.toNat_add, BitVec.toNat_add, one]
    split_ifs <;> omega
  · have whole := mt BitVec.lt_def.2 around
    rw [BitVec.toNat_add] at whole
    rw [if_neg around, BitVec.toNat_add, BitVec.toNat_add, none]
    split_ifs <;> omega

theorem csumAdd_modEq (csum addend : BitVec 32) :
    ((csumAdd csum addend).toNat : ℤ) ≡ csum.toNat + addend.toNat [ZMOD 65535] := by
  rw [toNat_csumAdd, Int.modEq_iff_dvd]
  split_ifs with around
  · refine ⟨65537, ?_⟩
    omega
  · refine ⟨0, ?_⟩
    omega

theorem csumAdd_ne_zero {csum : BitVec 32} (some : csum ≠ 0) (addend : BitVec 32) :
    csumAdd csum addend ≠ 0 := by
  intro zero
  have some : csum.toNat ≠ 0 := fun zero => some (BitVec.eq_of_toNat_eq zero)
  have zero : (csumAdd csum addend).toNat = 0 := congrArg BitVec.toNat zero
  rw [toNat_csumAdd] at zero
  split_ifs at zero <;> omega

/-- `csum_partial`, as the kernel has it for any processor. -/
def sumPartial (words : List (BitVec 16)) (csum : BitVec 32) : BitVec 32 :=
  words.foldl (fun csum word => csumAdd csum (word.setWidth 32)) csum

theorem sumPartial_modEq (words : List (BitVec 16)) (csum : BitVec 32) :
    ((sumPartial words csum).toNat : ℤ) ≡ csum.toNat + EndAround.total words [ZMOD 65535] := by
  induction words generalizing csum with
  | nil =>
    rw [sumPartial, List.foldl_nil, EndAround.total, List.map_nil, List.sum_nil, add_zero]
  | cons word words ih =>
    have first := (csumAdd_modEq csum (word.setWidth 32)).add_right (EndAround.total words)
    have small := word.isLt
    rw [BitVec.toNat_setWidth, Nat.mod_eq_of_lt (by omega), add_assoc, ← total_cons] at first
    exact (ih _).trans first

theorem sumPartial_ne_zero (words : List (BitVec 16)) {csum : BitVec 32} (some : csum ≠ 0) :
    sumPartial words csum ≠ 0 := by
  induction words generalizing csum with
  | nil => exact some
  | cons word words ih => exact ih (csumAdd_ne_zero some _)

def foldOnce (csum : BitVec 32) : BitVec 32 := (csum &&& (0xFFFF : BitVec 32)) + (csum >>> 16)

theorem toNat_foldOnce (csum : BitVec 32) :
    (foldOnce csum).toNat = csum.toNat % 65536 + csum.toNat / 65536 := by
  have small := csum.isLt
  have low : (csum &&& (0xFFFF : BitVec 32)).toNat = csum.toNat % 65536 := by
    rw [BitVec.toNat_and]
    exact Nat.and_two_pow_sub_one_eq_mod _ 16
  rw [foldOnce, BitVec.toNat_add, low, BitVec.toNat_ushiftRight, Nat.shiftRight_eq_div_pow]
  omega

/-- `csum_fold` -/
def fold (csum : BitVec 32) : BitVec 16 := ~~~(foldOnce (foldOnce csum)).setWidth 16

theorem fold_eq_zero_iff (csum : BitVec 32) :
    fold csum = 0 ↔ csum ≠ 0 ∧ (csum.toNat : ℤ) ≡ 0 [ZMOD 65535] := by
  have small := csum.isLt
  have zero : (0 : BitVec 16).toNat = 0 := rfl
  have first := toNat_foldOnce csum
  have second := toNat_foldOnce (foldOnce csum)
  have some : csum ≠ 0 ↔ csum.toNat ≠ 0 := not_congr BitVec.toNat_inj.symm
  -- the second time there is no carry any more
  have short : (foldOnce (foldOnce csum)).toNat ≤ 65535 := by omega
  have same : (foldOnce (foldOnce csum)).toNat % 65535 = csum.toNat % 65535 := by omega
  have empty : (foldOnce (foldOnce csum)).toNat = 0 ↔ csum.toNat = 0 := by omega
  rw [fold, ← BitVec.toNat_inj, BitVec.toNat_not, BitVec.toNat_setWidth, zero, some, Int.ModEq]
  omega

def WsumLib.summing : WsumLib where
  toCsumLib := CsumLib.summing
  csumPartial bytes csum := sumPartial (littleWords bytes) csum
  csumFold := fold
  ipFastCsum_eq_zero_iff header _ := by
    change ~~~(littleWords header).foldl EndAround.add 0 = ~~~(0xFFFF : BitVec 16) ↔ _
    exact BitVec.not_inj
  csumPartial_modEq bytes csum := by
    rw [← total_littleWords]
    exact sumPartial_modEq _ csum
  csumPartial_ne_zero bytes _ some := sumPartial_ne_zero (littleWords bytes) some
  csumFold_eq_zero_iff := fold_eq_zero_iff

def NEXTHDR_HOP : UInt8 := 0

def NEXTHDR_ROUTING : UInt8 := 43

def NEXTHDR_FRAGMENT : UInt8 := 44

def NEXTHDR_AUTH : UInt8 := 51

def NEXTHDR_NONE : UInt8 := 59

def NEXTHDR_DEST : UInt8 := 60

def ipv6ExtHdr (nexthdr : UInt8) : Bool :=
  [NEXTHDR_HOP, NEXTHDR_ROUTING, NEXTHDR_FRAGMENT, NEXTHDR_AUTH, NEXTHDR_NONE,
    NEXTHDR_DEST].contains nexthdr

/-- What is read of a header through `rmnet_frag_header_ptr`. -/
def header (memory : Memory) (fragDesc : FragDescriptor) (off len : BitVec 32) :
    Option (List UInt8) :=
  (fragDesc.headerPtr memory off len).map (HeaderPtr.read memory len.toNat)

def hdrlen (nexthdr : UInt8) (hp : List UInt8) : BitVec 32 :=
  let field := BitVec.ofNat 32 (hp.getD 1 0).toNat
  if nexthdr = NEXTHDR_FRAGMENT then 8
  else if nexthdr = NEXTHDR_AUTH then (field + 2) <<< 2
  else (field + 1) <<< 3

/-- The loop of `rmnet_frag_ipv6_skip_exthdr`, that ends at the latest where the bytes do. -/
def skipExthdrLoop (memory : Memory) (fragDesc : FragDescriptor) :
    Nat → BitVec 32 → UInt8 → BitVec 16 → Bool → Option (BitVec 32 × UInt8 × BitVec 16 × Bool)
  | 0, _, _, _, _ => none
  | passes + 1, start, nexthdr, fragOff, fragHdr =>
    if ipv6ExtHdr nexthdr = false then some (start, nexthdr, fragOff, fragHdr)
    else if nexthdr = NEXTHDR_NONE then none
    else
      match header memory fragDesc start 2 with
      | none => none
      | some hp =>
        if nexthdr = NEXTHDR_FRAGMENT then
          match header memory fragDesc (start + 2) 2 with
          | none => none
          | some fp =>
            if Trailer.ntohs (le16 fp 0) &&& 0xFFF8 ≠ 0 then some (start, nexthdr, le16 fp 0, true)
            else
              skipExthdrLoop memory fragDesc passes (start + hdrlen nexthdr hp) (hp.getD 0 0)
                (le16 fp 0) true
        else
          skipExthdrLoop memory fragDesc passes (start + hdrlen nexthdr hp) (hp.getD 0 0)
            fragOff fragHdr

/-- `rmnet_frag_ipv6_skip_exthdr`: where the headers end, what comes next, the fragment offset and
whether there is a fragment header. -/
def ipv6SkipExthdr (memory : Memory) (fragDesc : FragDescriptor) (start : BitVec 32)
    (nexthdr : UInt8) : Option (BitVec 32 × UInt8 × BitVec 16 × Bool) :=
  skipExthdrLoop memory fragDesc (fragDesc.len.toNat + 1) start nexthdr 0 false

def walk (lib : WsumLib) (memory : Memory) :
    List RmnetFragment → BitVec 32 → BitVec 16 → BitVec 32 → BitVec 32
  | [], _, _, csum => csum
  | frag :: frags, offset, csumLen, csum =>
    if csumLen = 0 then csum
    else if offset < frag.size then
      let len := minT (csumLen.setWidth 32) (frag.size - offset)
      walk lib memory frags 0 (csumLen - len.setWidth 16)
        (lib.csumPartial (((frag.read memory).drop offset.toNat).take len.toNat) csum)
    else walk lib memory frags (offset - frag.size) csumLen csum

/-- The end of `rmnet_frag_checksum_pkt`, from the check of the protocol on: `-EINVAL`, 0 or 1. -/
def checksumTransport (lib : WsumLib) (memory : Memory) (fragDesc : FragDescriptor)
    (ipLen : BitVec 16) (ipProto : Nat) (transProto : UInt8) (csumLen : BitVec 16)
    (csum : BitVec 32) : Except Errno Bool :=
  let offset : BitVec 32 := 8 + ipLen.setWidth 32
  let summed := lib.csumFold (walk lib memory fragDesc.frags offset csumLen csum) == 0
  if transProto ≠ IPPROTO_TCP ∧ transProto ≠ IPPROTO_UDP then .error .einval
  else if transProto = IPPROTO_UDP then
    match header memory fragDesc offset 8 with
    | none => .error .einval
    | some uh =>
      if le16 uh 6 = 0 then
        if ipProto = 4 then .ok true else .ok false
      else .ok summed
  else .ok summed

/-- `rmnet_frag_checksum_pkt` -/
def checksumPkt (lib : WsumLib) (memory : Memory) (fragDesc : FragDescriptor) :
    Except Errno Bool :=
  let offset : BitVec 32 := 8
  match header memory fragDesc offset 1 with
  | none => .error .einval
  | some version =>
    if version.getD 0 0 &&& 0xF0 = 0x40 then
      let ipLen : BitVec 16 := ((version.getD 0 0 &&& 0xF).toBitVec.setWidth 16) * 4
      match header memory fragDesc offset (ipLen.setWidth 32) with
      | none => .error .einval
      | some iph =>
        if Trailer.ntohs (le16 iph 6) &&& 0x3FFF ≠ 0 then .error .einval
        else
          let csumLen := Trailer.ntohs (le16 iph 2)
          if fragDesc.len - offset < csumLen.setWidth 32 then .error .einval
          else
            let csumLen := csumLen - ipLen
            if lib.ipFastCsum iph ≠ 0 then .ok false
            else
              checksumTransport lib memory fragDesc ipLen 4 (iph.getD 9 0) csumLen
                (~~~(lib.csumTcpudpMagic ((iph.drop 12).take 4) ((iph.drop 16).take 4)
                  (csumLen.setWidth 32) (iph.getD 9 0)).setWidth 32)
    else if version.getD 0 0 &&& 0xF0 = 0x60 then
      match header memory fragDesc offset 40 with
      | none => .error .einval
      | some ip6h =>
        match ipv6SkipExthdr memory fragDesc (offset + 40) (ip6h.getD 6 0) with
        | none => .error .einval
        | some (ipLen, protocol, fragOff, _) =>
          if ipLen.msb = true ∨ fragOff ≠ 0 then .error .einval
          else
            let ipLen : BitVec 16 := ipLen.setWidth 16
            let csumLen := Trailer.ntohs (le16 ip6h 4)
            if fragDesc.len - offset < csumLen.setWidth 32 + ipLen.setWidth 32 then
              .error .einval
            else
              checksumTransport lib memory fragDesc ipLen 6 protocol csumLen
                (~~~(lib.csumIpv6Magic ((ip6h.drop 8).take 16) ((ip6h.drop 24).take 16)
                  (csumLen.setWidth 32) protocol).setWidth 32)
    else .error .einval

/-! ### What is read and summed -/

section Walks

open FragDescriptor RmnetFragment

variable {memory : Memory} {fragDesc : FragDescriptor} {off len : BitVec 32}

theorem le16_take {bytes : List UInt8} {i n : Nat} (inside : i + 1 < n) :
    le16 (bytes.take n) i = le16 bytes i := by
  have one : ∀ j < n, (bytes.take n).getD j 0 = bytes.getD j 0 := by
    intro j below
    rw [List.getD_eq_getElem?_getD, List.getElem?_take_of_lt below, List.getD_eq_getElem?_getD]
  rw [le16, le16, one _ inside, one _ (by omega)]

theorem header_eq (measured : fragDesc.Measured)
    (fits : off.toNat + len.toNat ≤ total fragDesc.frags) :
    header memory fragDesc off len =
      some (((bytes memory fragDesc.frags).drop off.toNat).take len.toNat) := by
  have word := fragDesc.len.isLt
  have plain : ¬fragDesc.Wraps off len := by
    rintro ⟨-, -, beyond⟩
    have measured : fragDesc.len.toNat = total fragDesc.frags := measured
    omega
  rw [header, headerPtr_eq_slice measured plain, slice, length_bytes, if_pos fits]

def chunks (memory : Memory) : List RmnetFragment → Nat → Nat → List (List UInt8)
  | [], _, _ => []
  | frag :: frags, offset, len =>
    if len = 0 then []
    else if offset < frag.size.toNat then
      ((frag.read memory).drop offset).take len ::
        chunks memory frags 0 (len - (frag.size.toNat - offset))
    else chunks memory frags (offset - frag.size.toNat) len

theorem flatten_chunks (frags : List RmnetFragment) (offset len : Nat) :
    (chunks memory frags offset len).flatten = ((bytes memory frags).drop offset).take len := by
  induction frags generalizing offset len with
  | nil => rw [chunks, bytes_nil, List.drop_nil, List.take_nil, List.flatten_nil]
  | cons frag frags ih =>
    rw [chunks]
    split_ifs with done here
    · rw [done, List.take_zero, List.flatten_nil]
    · rw [List.flatten_cons, ih, List.drop_zero, bytes_cons, List.drop_append_of_le_length
        (by rw [length_read]; omega), List.take_append, List.length_drop, length_read]
    · rw [ih, drop_bytes_cons (Nat.not_lt.mp here)]

theorem walk_eq (lib : WsumLib) (frags : List RmnetFragment) (offset : BitVec 32)
    (csumLen : BitVec 16) (csum : BitVec 32) :
    walk lib memory frags offset csumLen csum =
      (chunks memory frags offset.toNat csumLen.toNat).foldl
        (fun csum piece => lib.csumPartial piece csum) csum := by
  induction frags generalizing offset csumLen csum with
  | nil => rfl
  | cons frag frags ih =>
    rw [walk, chunks]
    by_cases done : csumLen = 0
    · have none : csumLen.toNat = 0 := congrArg BitVec.toNat done
      rw [if_pos done, if_pos none]
      rfl
    · have some : csumLen.toNat ≠ 0 := fun zero => done (BitVec.eq_of_toNat_eq zero)
      rw [if_neg done, if_neg some]
      by_cases here : offset < frag.size
      · have inside : offset.toNat < frag.size.toNat := here
        have small := csumLen.isLt
        have rest : (frag.size - offset).toNat = frag.size.toNat - offset.toNat :=
          BitVec.toNat_sub_of_le (BitVec.le_of_lt here)
        have summed : (minT (csumLen.setWidth 32) (frag.size - offset)).toNat =
            min csumLen.toNat (frag.size.toNat - offset.toNat) := by
          rw [toNat_minT, rest, BitVec.toNat_setWidth, Nat.mod_eq_of_lt (by omega)]
        have left : (csumLen - (minT (csumLen.setWidth 32) (frag.size - offset)).setWidth
            16).toNat = csumLen.toNat - (frag.size.toNat - offset.toNat) := by
          rw [BitVec.toNat_sub, BitVec.toNat_setWidth, summed]
          omega
        have part : ((frag.read memory).drop offset.toNat).take
            (min csumLen.toNat (frag.size.toNat - offset.toNat)) =
              ((frag.read memory).drop offset.toNat).take csumLen.toNat := by
          rw [List.take_eq_take_iff, List.length_drop, length_read]
          omega
        rw [if_pos here, if_pos inside, List.foldl_cons]
        dsimp only
        rw [ih, left, summed, part]
        rfl
      · have before : frag.size.toNat ≤ offset.toNat := Nat.not_lt.mp here
        rw [if_neg here, if_neg (Nat.not_lt.mpr before), ih,
          BitVec.toNat_sub_of_le before]

theorem foldl_csumPartial (lib : WsumLib) (pieces : List (List UInt8)) (csum : BitVec 32) :
    ((pieces.foldl (fun csum piece => lib.csumPartial piece csum) csum).toNat : ℤ) ≡
        csum.toNat + (pieces.map little).sum [ZMOD 65535] ∧
      (csum ≠ 0 → pieces.foldl (fun csum piece => lib.csumPartial piece csum) csum ≠ 0) := by
  induction pieces generalizing csum with
  | nil =>
    rw [List.foldl_nil, List.map_nil, List.sum_nil, add_zero]
    exact ⟨rfl, id⟩
  | cons piece pieces ih =>
    obtain ⟨sums, kept⟩ := ih (lib.csumPartial piece csum)
    have first := (lib.csumPartial_modEq piece csum).add_right (pieces.map little).sum
    rw [List.foldl_cons, List.map_cons, List.sum_cons, ← add_assoc]
    exact ⟨sums.trans first, fun some => kept (lib.csumPartial_ne_zero piece csum some)⟩

theorem csumFold_walk_iff (lib : WsumLib) (frags : List RmnetFragment) (offset : BitVec 32)
    (csumLen : BitVec 16) {csum : BitVec 32} (some : csum ≠ 0) :
    lib.csumFold (walk lib memory frags offset csumLen csum) = 0 ↔
      (csum.toNat : ℤ) + little (((bytes memory frags).drop offset.toNat).take csumLen.toNat) +
        misplaced 0 (chunks memory frags offset.toNat csumLen.toNat) ≡ 0 [ZMOD 65535] := by
  obtain ⟨sums, kept⟩ :=
    foldl_csumPartial lib (chunks memory frags offset.toNat csumLen.toNat) csum
  rw [sum_map_little 0, if_pos rfl, flatten_chunks, ← add_assoc] at sums
  rw [lib.csumFold_eq_zero_iff, walk_eq, and_iff_right (kept some)]
  exact ⟨fun zero => sums.symm.trans zero, fun zero => sums.trans zero⟩

theorem not_setWidth_modEq (magic : BitVec 16) :
    ((~~~magic.setWidth 32 : BitVec 32).toNat : ℤ) ≡ (~~~magic).toNat [ZMOD 65535] ∧
      ~~~magic.setWidth 32 ≠ (0 : BitVec 32) := by
  have small := magic.isLt
  have wide : (~~~magic.setWidth 32 : BitVec 32).toNat = 2 ^ 32 - 1 - magic.toNat := by
    rw [BitVec.toNat_not, BitVec.toNat_setWidth, Nat.mod_eq_of_lt (by omega)]
  constructor
  · rw [wide, BitVec.toNat_not]
    unfold Int.ModEq
    omega
  · intro zero
    have zero : (~~~magic.setWidth 32 : BitVec 32).toNat = 0 := congrArg BitVec.toNat zero
    omega

theorem checksumTransport_eq (lib : WsumLib) (measured : fragDesc.Measured) (ipProto : Nat)
    {ipLen csumLen : BitVec 16} {transProto : UInt8}
    (known : transProto = IPPROTO_TCP ∨ transProto = IPPROTO_UDP)
    (fits : 8 + ipLen.toNat + csumLen.toNat ≤ total fragDesc.frags) (whole : 8 ≤ csumLen.toNat)
    {range : List UInt8}
    (read : ((bytes memory fragDesc.frags).drop (8 + ipLen.toNat)).take csumLen.toNat = range)
    (magic : BitVec 16) {words : List (BitVec 16)} (sums : Sums words (~~~magic)) :
    checksumTransport lib memory fragDesc ipLen ipProto transProto csumLen
        (~~~magic.setWidth 32) =
      .ok (if Unsummed transProto range then decide (ipProto = 4) else
        decide (EndAround.total words + little range +
          misplaced 0 (chunks memory fragDesc.frags (8 + ipLen.toNat) csumLen.toNat) ≡
            0 [ZMOD 65535])) := by
  have small := ipLen.isLt
  have place : (8 + ipLen.setWidth 32 : BitVec 32).toNat = 8 + ipLen.toNat := by
    have eight : (8 : BitVec 32).toNat = 8 := rfl
    rw [BitVec.toNat_add, BitVec.toNat_setWidth, eight]
    omega
  have summed : (lib.csumFold (walk lib memory fragDesc.frags (8 + ipLen.setWidth 32) csumLen
      (~~~magic.setWidth 32)) == 0) = decide (EndAround.total words + little range +
        misplaced 0 (chunks memory fragDesc.frags (8 + ipLen.toNat) csumLen.toNat) ≡
          0 [ZMOD 65535]) := by
    have first : ((~~~magic.setWidth 32 : BitVec 32).toNat : ℤ) ≡ EndAround.total words
        [ZMOD 65535] := (not_setWidth_modEq magic).1.trans sums
    have same := (first.add_right (little range)).add_right
      (misplaced 0 (chunks memory fragDesc.frags (8 + ipLen.toNat) csumLen.toNat))
    rw [beq_eq_decide, decide_eq_decide, csumFold_walk_iff lib _ _ _ (not_setWidth_modEq magic).2,
      place, read]
    exact ⟨fun zero => same.symm.trans zero, fun zero => same.trans zero⟩
  have found : header memory fragDesc (8 + ipLen.setWidth 32) 8 = some
      (((bytes memory fragDesc.frags).drop (8 + ipLen.toNat)).take 8) := by
    have eight : (8 : BitVec 32).toNat = 8 := rfl
    rw [header_eq measured (by rw [place, eight]; omega), place, eight]
  have field : le16 (((bytes memory fragDesc.frags).drop (8 + ipLen.toNat)).take 8) 6 =
      le16 range 6 := by
    rw [← read, le16_take (by omega), le16_take (by omega)]
  rw [checksumTransport]
  have other : ¬(transProto ≠ IPPROTO_TCP ∧ transProto ≠ IPPROTO_UDP) := fun other =>
    known.elim other.1 other.2
  rw [summed, if_neg other, found]
  simp only [field]
  rcases known with rfl | rfl
  · rw [if_neg (by decide), if_neg (fun empty : Unsummed _ _ => absurd empty.1 (by decide))]
  · rw [if_pos rfl]
    by_cases none : le16 range 6 = 0
    · have empty : Unsummed IPPROTO_UDP range := ⟨rfl, none⟩
      rw [if_pos none, if_pos empty]
      split_ifs with four
      · rw [decide_eq_true four]
      · rw [decide_eq_false four]
    · rw [if_neg none, if_neg fun empty : Unsummed _ _ => none empty.2]

end Walks

/-! ### Extension headers -/

structure ExtHeader where
  type : UInt8
  bytes : List UInt8
  known : ipv6ExtHdr type = true ∧ type ≠ NEXTHDR_NONE
  length : bytes.length = (hdrlen type bytes).toNat
  whole : type = NEXTHDR_FRAGMENT → Trailer.ntohs (le16 bytes 2) &&& 0xFFF9 = 0

namespace ExtHeader

def extBytes (exts : List ExtHeader) : List UInt8 := exts.flatMap bytes

def Chain : UInt8 → List ExtHeader → UInt8 → Prop
  | nexthdr, [], protocol => nexthdr = protocol
  | nexthdr, ext :: exts, protocol =>
    nexthdr = ext.type ∧ Chain (ext.bytes.getD 0 0) exts protocol

def lastFragOff : List ExtHeader → BitVec 16 → BitVec 16
  | [], fragOff => fragOff
  | ext :: exts, fragOff =>
    lastFragOff exts (if ext.type = NEXTHDR_FRAGMENT then le16 ext.bytes 2 else fragOff)

theorem eight_le (ext : ExtHeader) : 8 ≤ ext.bytes.length := by
  have field := (ext.bytes.getD 1 0).toNat_lt
  have eight : (8 : BitVec 32).toNat = 8 := rfl
  have two : (2 : BitVec 32).toNat = 2 := rfl
  have one : (1 : BitVec 32).toNat = 1 := rfl
  rw [ext.length, hdrlen]
  split_ifs
  · exact Nat.le_refl 8
  · rw [BitVec.toNat_shiftLeft, BitVec.toNat_add, BitVec.toNat_ofNat, two, Nat.shiftLeft_eq]
    omega
  · rw [BitVec.toNat_shiftLeft, BitVec.toNat_add, BitVec.toNat_ofNat, one, Nat.shiftLeft_eq]
    omega

theorem length_le (exts : List ExtHeader) : exts.length ≤ (extBytes exts).length := by
  induction exts with
  | nil => exact Nat.le_refl 0
  | cons ext exts ih =>
    have eight := ext.eight_le
    rw [extBytes, List.flatMap_cons, List.length_append, List.length_cons]
    change _ ≤ _ + (extBytes exts).length
    omega

end ExtHeader

section Skipping

open ExtHeader FragDescriptor RmnetFragment

variable {memory : Memory} {fragDesc : FragDescriptor}

theorem getD_take {bytes : List UInt8} {i n : Nat} (inside : i < n) :
    (bytes.take n).getD i 0 = bytes.getD i 0 := by
  rw [List.getD_eq_getElem?_getD, List.getElem?_take_of_lt inside, List.getD_eq_getElem?_getD]

theorem le16_drop (bytes : List UInt8) (i n : Nat) :
    le16 (bytes.drop n) i = le16 bytes (n + i) := by
  rw [le16, le16, List.getD_eq_getElem?_getD, List.getD_eq_getElem?_getD,
    List.getElem?_drop, List.getElem?_drop, List.getD_eq_getElem?_getD,
    List.getD_eq_getElem?_getD, Nat.add_assoc]

theorem skipExthdrLoop_eq (measured : fragDesc.Measured) {exts : List ExtHeader}
    {protocol : UInt8} (stop : ipv6ExtHdr protocol = false) {rest : List UInt8} {passes : Nat}
    (enough : exts.length < passes) {start : BitVec 32} {nexthdr : UInt8}
    (chain : Chain nexthdr exts protocol)
    (stream : (bytes memory fragDesc.frags).drop start.toNat = extBytes exts ++ rest)
    (fragOff : BitVec 16) (fragHdr : Bool) :
    ∃ fragHdr', skipExthdrLoop memory fragDesc passes start nexthdr fragOff fragHdr =
      some (start + BitVec.ofNat 32 (extBytes exts).length, protocol, lastFragOff exts fragOff,
        fragHdr') := by
  induction exts generalizing passes start nexthdr fragOff fragHdr with
  | nil =>
    obtain ⟨passes, rfl⟩ := Nat.exists_eq_succ_of_ne_zero (Nat.ne_of_gt enough)
    have same : nexthdr = protocol := chain
    refine ⟨fragHdr, ?_⟩
    rw [skipExthdrLoop, same, if_pos stop, extBytes, List.flatMap_nil, List.length_nil]
    rw [show start + BitVec.ofNat 32 0 = start from BitVec.add_zero start]
    rfl
  | cons ext exts ih =>
    obtain ⟨passes, rfl⟩ := Nat.exists_eq_succ_of_ne_zero (Nat.ne_of_gt (Nat.zero_lt_of_lt enough))
    obtain ⟨same, chain⟩ := chain
    have eight := ext.eight_le
    have word := fragDesc.len.isLt
    have two : (2 : BitVec 32).toNat = 2 := rfl
    have stream : (bytes memory fragDesc.frags).drop start.toNat =
        ext.bytes ++ (extBytes exts ++ rest) := by
      rw [stream, extBytes, List.flatMap_cons, List.append_assoc]
      rfl
    have room : start.toNat + ext.bytes.length ≤ total fragDesc.frags := by
      have length := congrArg List.length stream
      rw [List.length_drop, length_bytes, List.length_append] at length
      omega
    have measured' : fragDesc.len.toNat = total fragDesc.frags := measured
    have first : header memory fragDesc start 2 =
        some ((ext.bytes ++ (extBytes exts ++ rest)).take 2) := by
      rw [header_eq measured (by rw [two]; omega), stream, two]
    have second : header memory fragDesc (start + 2) 2 =
        some (((ext.bytes ++ (extBytes exts ++ rest)).drop 2).take 2) := by
      have place : (start + 2).toNat = start.toNat + 2 := by
        rw [BitVec.toNat_add, two]
        omega
      rw [header_eq measured (by rw [place, two]; omega), place, two, ← List.drop_drop, stream]
    have field : ∀ i < 2, ((ext.bytes ++ (extBytes exts ++ rest)).take 2).getD i 0 =
        ext.bytes.getD i 0 := by
      intro i below
      rw [getD_take below, List.getD_append _ _ _ _ (by omega)]
    have fragField : le16 (((ext.bytes ++ (extBytes exts ++ rest)).drop 2).take 2) 0 =
        le16 ext.bytes 2 := by
      rw [le16_take (by omega), le16_drop, Trailer.le16_append (by omega)]
    have step : hdrlen ext.type ((ext.bytes ++ (extBytes exts ++ rest)).take 2) =
        BitVec.ofNat 32 ext.bytes.length := by
      rw [ext.length, BitVec.ofNat_toNat, BitVec.setWidth_eq, hdrlen, field 1 (by omega), hdrlen]
    have place : (start + BitVec.ofNat 32 ext.bytes.length).toNat =
        start.toNat + ext.bytes.length := by
      rw [BitVec.toNat_add, BitVec.toNat_ofNat]
      omega
    have behind : (bytes memory fragDesc.frags).drop
        (start + BitVec.ofNat 32 ext.bytes.length).toNat = extBytes exts ++ rest := by
      rw [place, ← List.drop_drop, stream, List.drop_left]
    have finish : start + BitVec.ofNat 32 (extBytes (ext :: exts)).length =
        start + BitVec.ofNat 32 ext.bytes.length + BitVec.ofNat 32 (extBytes exts).length := by
      rw [extBytes, List.flatMap_cons, List.length_append, BitVec.ofNat_add, ← BitVec.add_assoc]
      rfl
    have enough : exts.length < passes := Nat.lt_of_succ_lt_succ enough
    rw [skipExthdrLoop, same, if_neg (by rw [ext.known.1]; decide), if_neg ext.known.2, first]
    dsimp only
    rw [step, field 0 (by omega), finish, lastFragOff]
    by_cases fragment : ext.type = NEXTHDR_FRAGMENT
    · have none : Trailer.ntohs (le16 ext.bytes 2) &&& 0xFFF8 = 0 := by
        have whole := ext.whole fragment
        have part : (0xFFF8 : BitVec 16) = 0xFFF9 &&& 0xFFF8 := by decide
        rw [part, ← BitVec.and_assoc, whole]
        exact BitVec.zero_and
      rw [if_pos fragment, if_pos fragment, second]
      dsimp only
      rw [fragField, if_neg (not_not.mpr none)]
      exact ih enough chain behind _ _
    · rw [if_neg fragment, if_neg fragment]
      exact ih enough chain behind _ _

end Skipping

/-! ### Packets behind the headers of the multiplexing -/

def Verdict (result : Except Errno Bool) (correct : Prop) : Prop :=
  (result = .ok true ↔ correct) ∧ (result = .ok false ↔ ¬correct)

theorem verdict_ok_iff (positive : Bool) (correct : Prop) :
    Verdict (.ok positive) correct ↔ (positive = true ↔ correct) := by
  have same : ∀ other : Bool, (.ok positive : Except Errno Bool) = .ok other ↔ positive = other :=
    fun other => ⟨fun equal => Except.ok.inj equal, fun equal => congrArg _ equal⟩
  rw [Verdict, same, same, ← Bool.not_eq_true, not_iff_not, and_self]

theorem not_verdict_error (rc : Errno) (correct : Prop) : ¬Verdict (.error rc) correct := by
  rintro ⟨positive, zero⟩
  by_cases right : correct
  · exact absurd (positive.mpr right) (by simp)
  · exact absurd (zero.mpr right) (by simp)

/-- A descriptor that has a packet behind the eight bytes of the headers, in any fragments, and
perhaps padding behind it. -/
structure Placed (memory : Memory) (packet : List UInt8) where
  fragDesc : FragDescriptor
  headers : List UInt8
  padding : List UInt8
  measured : fragDesc.Measured
  eight : headers.length = 8
  stream : RmnetFragment.bytes memory fragDesc.frags = headers ++ (packet ++ padding)

namespace Placed

variable {memory : Memory} {packet : List UInt8} (placed : Placed memory packet)

def range (offset len : Nat) : List UInt8 :=
  ((placed.headers ++ (packet ++ placed.padding)).drop offset).take len

def misplaced (offset len : Nat) : ℤ :=
  Octets.misplaced 0 (chunks memory placed.fragDesc.frags offset len)

theorem total_eq : RmnetFragment.total placed.fragDesc.frags =
    8 + packet.length + placed.padding.length := by
  rw [← RmnetFragment.length_bytes memory, placed.stream, List.length_append, List.length_append,
    placed.eight, Nat.add_assoc]

theorem range_add {first second : List UInt8} (whole : packet = first ++ second)
    {len : Nat} (inside : len = second.length) :
    placed.range (8 + first.length) len = second := by
  subst whole
  rw [range, ← placed.eight, ← List.drop_drop, List.drop_left, List.append_assoc,
    List.drop_left, inside, List.take_left]

theorem header_eq {first second : List UInt8} (whole : packet = first ++ second)
    {len : BitVec 32} (inside : len.toNat ≤ first.length) :
    header memory placed.fragDesc 8 len = some (first.take len.toNat) := by
  subst whole
  have eight : (8 : BitVec 32).toNat = 8 := rfl
  have fits : (8 : BitVec 32).toNat + len.toNat ≤
      RmnetFragment.total placed.fragDesc.frags := by
    rw [placed.total_eq, List.length_append, eight]
    omega
  rw [Checksum.header_eq placed.measured fits, placed.stream, eight, ← placed.eight,
    List.drop_left, List.append_assoc, List.take_append_of_le_length inside]

end Placed

structure Ipv4Packet extends Trailer.Ipv4Packet where
  version : header.getD 0 0 &&& 0xF0 = 0x40

structure Ipv6Packet where
  header : List UInt8
  exts : List ExtHeader
  payload : List UInt8
  protocol : UInt8
  fixed : header.length = 40
  version : header.getD 0 0 &&& 0xF0 = 0x60
  payloadLen : (Trailer.ntohs (le16 header 4)).toNat =
    (ExtHeader.extBytes exts).length + payload.length
  chain : ExtHeader.Chain (header.getD 6 0) exts protocol
  carries : Carries protocol payload

namespace Ipv6Packet

variable (p : Ipv6Packet)

def extBytes : List UInt8 := ExtHeader.extBytes p.exts

def bytes : List UInt8 := p.header ++ (p.extBytes ++ p.payload)

def pseudo (len : Nat) : List UInt8 :=
  pseudoHeader6 ((p.header.drop 8).take 16) ((p.header.drop 24).take 16) len p.protocol

def Correct : Prop :=
  ¬Unsummed p.protocol p.payload ∧
    AllOnes (p.pseudo (segmentLen p.protocol p.payload) ++ segment p.protocol p.payload)

/-- What the code takes for the length of the headers: where they end in the descriptor, so that
the eight bytes before the packet are counted twice. -/
def ipLen : Nat := (48 + p.extBytes.length) % 65536

def len : Nat := p.extBytes.length + p.payload.length

def sum : ℤ :=
  little (p.pseudo (segmentLen p.protocol p.payload)) + little (segment p.protocol p.payload)

variable {memory : Memory} (placed : Placed memory p.bytes)

def range : List UInt8 := placed.range (8 + p.ipLen) p.len

def discrepancy : ℤ :=
  (little (p.pseudo p.len) - little (p.pseudo (segmentLen p.protocol p.payload))) +
    (little (p.range placed) - little (segment p.protocol p.payload)) +
    placed.misplaced (8 + p.ipLen) p.len

end Ipv6Packet

namespace Ipv4Packet

variable (p : Ipv4Packet)

def sum : ℤ :=
  little (p.pseudo (segmentLen p.protocol p.payload)) + little (segment p.protocol p.payload)

variable {memory : Memory} (placed : Placed memory p.bytes)

/-- What the check comes to besides: what is behind a datagram, and what fragments put out of
place. -/
def discrepancy : ℤ :=
  (little (p.pseudo p.payload.length) - little (p.pseudo (segmentLen p.protocol p.payload))) +
    (little p.payload - little (segment p.protocol p.payload)) +
    placed.misplaced (8 + p.header.length) p.payload.length

end Ipv4Packet

theorem Placed.misplaced_eq_zero {memory : Memory} {packet : List UInt8}
    (placed : Placed memory packet) {offset len : Nat}
    (even : ∀ piece ∈ (chunks memory placed.fragDesc.frags offset len).dropLast,
      piece.length % 2 = 0) : placed.misplaced offset len = 0 :=
  Octets.misplaced_eq_zero even rfl

theorem little_zero_iff (bytes : List UInt8) :
    little bytes ≡ 0 [ZMOD 65535] ↔ big bytes ≡ 0 [ZMOD 65535] := by
  constructor
  · intro zero
    exact (big_modEq bytes).trans (zero.mul_left 256)
  · intro zero
    exact (little_modEq bytes).trans (zero.mul_left 256)

theorem allOnes_iff {pseudo segment : List UInt8} (even : pseudo.length % 2 = 0) {proto : UInt8}
    (inside : proto ∈ pseudo) (known : proto ≠ 0) :
    AllOnes (pseudo ++ segment) ↔ little pseudo + little segment ≡ 0 [ZMOD 65535] := by
  rw [Trailer.allOnes_iff even inside known, ← big_append _ _ even, ← little_append _ _ even,
    little_zero_iff]

namespace Ipv4Packet

variable (p : Ipv4Packet) {memory : Memory} (placed : Placed memory p.bytes)

theorem correct_iff :
    p.Correct ↔ Unsummed p.protocol p.payload ∨ p.sum ≡ 0 [ZMOD 65535] := by
  have addressed := p.addressed
  have even : (p.pseudo (segmentLen p.protocol p.payload)).length % 2 = 0 := by
    rw [Trailer.Ipv4Packet.pseudo, Trailer.length_pseudoHeader4
      (Trailer.length_slice (by omega)) (Trailer.length_slice (by omega))]
  have inside : p.protocol ∈ p.pseudo (segmentLen p.protocol p.payload) := by
    simp [Trailer.Ipv4Packet.pseudo, pseudoHeader4]
  rw [Trailer.Ipv4Packet.Correct, allOnes_iff even inside p.carries.known.2, sum]

theorem toNat_ipLen :
    (((p.header.getD 0 0 &&& 0xF).toBitVec.setWidth 16) * 4 : BitVec 16).toNat =
      p.header.length := by
  have four : (4 : BitVec 16).toNat = 4 := rfl
  have low : (p.header.getD 0 0 &&& 0xF).toNat = (p.header.getD 0 0).toNat % 16 := by
    rw [UInt8.toNat_and]
    exact Nat.and_two_pow_sub_one_eq_mod _ 4
  rw [BitVec.toNat_mul, BitVec.toNat_setWidth, UInt8.toNat_toBitVec, low, four, p.ihl]
  omega

theorem ipFastCsum_eq_zero_iff (lib : WsumLib) :
    lib.ipFastCsum p.header = 0 ↔ AllOnes p.header := by
  have addressed := p.addressed
  have version := p.version
  have aligned : p.header.length % 4 = 0 := by
    rw [p.ihl]
    omega
  have some : p.header.getD 0 0 ≠ 0 := by
    intro none
    rw [none] at version
    exact absurd version (by decide)
  have inside : p.header.getD 0 0 ∈ p.header := by
    rw [List.getD_eq_getElem _ _ (by omega : 0 < p.header.length)]
    exact List.getElem_mem _
  obtain ⟨first, second⟩ := pos_of_mem inside some
  rw [lib.ipFastCsum_eq_zero_iff _ aligned,
    foldl_add_eq_ones_iff (by rwa [total_littleWords]), total_littleWords, AllOnes,
    foldl_add_eq_ones_iff (by rwa [total_bigWords]), total_bigWords, little_zero_iff]

theorem checksumPkt_eq (lib : WsumLib) :
    ∃ positive : Bool, checksumPkt lib memory placed.fragDesc = .ok positive ∧
      (positive = true ↔ AllOnes p.header ∧
        (Unsummed p.protocol p.payload ∨ p.sum + p.discrepancy placed ≡ 0 [ZMOD 65535])) := by
  have addressed := p.addressed
  have totLen := p.totLen
  have small := (Trailer.ntohs (le16 p.header 2)).isLt
  have total := placed.total_eq
  have measured : placed.fragDesc.len.toNat = RmnetFragment.total placed.fragDesc.frags :=
    placed.measured
  have word := placed.fragDesc.len.isLt
  have eight : (8 : BitVec 32).toNat = 8 := rfl
  have length : p.bytes.length = p.header.length + p.payload.length := List.length_append
  have ipLen := p.toNat_ipLen
  generalize held : (((p.header.getD 0 0 &&& 0xF).toBitVec.setWidth 16) * 4 : BitVec 16) = ipLen'
    at ipLen
  have version : header memory placed.fragDesc 8 1 = some (p.header.take 1) :=
    placed.header_eq rfl (by rw [show (1 : BitVec 32).toNat = 1 from rfl]; omega)
  have wide : (ipLen'.setWidth 32).toNat = p.header.length := by
    rw [BitVec.toNat_setWidth, ipLen]
    omega
  have iph : header memory placed.fragDesc 8 (ipLen'.setWidth 32) = some p.header := by
    have found := @Placed.header_eq memory p.bytes placed p.header p.payload rfl
      (ipLen'.setWidth 32) (by omega)
    rw [found, wide, List.take_length]
  generalize total' : Trailer.ntohs (le16 p.header 2) = csumLen at totLen small
  have csum : (csumLen - ipLen').toNat = p.payload.length := by
    rw [BitVec.toNat_sub_of_le (by rw [BitVec.le_def]; omega), ipLen, totLen]
    omega
  have fits : ¬placed.fragDesc.len - 8 < csumLen.setWidth 32 := by
    rw [BitVec.lt_def, BitVec.toNat_sub_of_le (by rw [BitVec.le_def, eight]; omega), eight,
      BitVec.toNat_setWidth]
    omega
  have fragment : Trailer.ntohs (le16 p.header 6) &&& 0x3FFF = 0 := p.whole
  have pseudoLen : ((csumLen - ipLen').setWidth 32).toNat = p.payload.length := by
    rw [BitVec.toNat_setWidth, csum]
    omega
  have sums := lib.sums_csumTcpudpMagic ((p.header.drop 12).take 4) ((p.header.drop 16).take 4)
    ((csumLen - ipLen').setWidth 32) p.protocol (Trailer.length_slice (by omega))
    (Trailer.length_slice (by omega)) (by omega)
  have read : ((RmnetFragment.bytes memory placed.fragDesc.frags).drop (8 + ipLen'.toNat)).take
      (csumLen - ipLen').toNat = p.payload := by
    rw [placed.stream, ipLen]
    exact placed.range_add rfl csum
  have carried : 8 ≤ p.payload.length := by
    rcases p.carries with ⟨-, whole⟩ | ⟨-, whole⟩
    · omega
    · exact whole
  have known : p.protocol = IPPROTO_TCP ∨ p.protocol = IPPROTO_UDP := p.carries.known.1
  have transport := checksumTransport_eq lib placed.measured 4 known (by omega) (by omega) read _
    sums
  have first : (p.header.take 1).getD 0 0 = p.header.getD 0 0 := getD_take (by omega)
  have sum : p.sum + p.discrepancy placed =
      EndAround.total (littleWords (pseudoHeader4 ((p.header.drop 12).take 4)
        ((p.header.drop 16).take 4) p.payload.length p.protocol)) + little p.payload +
      misplaced 0 (chunks memory placed.fragDesc.frags (8 + p.header.length)
        p.payload.length) := by
    rw [Ipv4Packet.sum, discrepancy, total_littleWords]
    change _ = little (p.pseudo p.payload.length) + little p.payload +
      placed.misplaced (8 + p.header.length) p.payload.length
    ring
  rw [pseudoLen, csum, ipLen, ← sum] at transport
  rw [checksumPkt, version]
  simp only [first]
  rw [if_pos p.version, held, iph]
  dsimp only
  rw [if_neg (not_not.mpr fragment), total', if_neg fits]
  by_cases right : AllOnes p.header
  · have checked : lib.ipFastCsum p.header = 0 := (p.ipFastCsum_eq_zero_iff lib).mpr right
    rw [if_neg (not_not.mpr checked)]
    refine ⟨_, transport, ?_⟩
    rw [and_iff_right right]
    split_ifs with empty
    · exact iff_of_true rfl (.inl empty)
    · rw [decide_eq_true_iff, or_iff_right empty]
  · have checked : lib.ipFastCsum p.header ≠ 0 := fun zero =>
      right ((p.ipFastCsum_eq_zero_iff lib).mp zero)
    rw [if_pos checked]
    exact ⟨false, rfl, iff_of_false Bool.false_ne_true fun both => right both.1⟩

end Ipv4Packet

namespace Ipv6Packet

variable (p : Ipv6Packet) {memory : Memory} (placed : Placed memory p.bytes)

theorem correct_iff :
    p.Correct ↔ ¬Unsummed p.protocol p.payload ∧ p.sum ≡ 0 [ZMOD 65535] := by
  have fixed := p.fixed
  have even : (p.pseudo (segmentLen p.protocol p.payload)).length % 2 = 0 := by
    rw [pseudo, Trailer.length_pseudoHeader6 (Trailer.length_slice (by omega))
      (Trailer.length_slice (by omega))]
  have inside : p.protocol ∈ p.pseudo (segmentLen p.protocol p.payload) := by
    simp [pseudo, pseudoHeader6]
  rw [Correct, allOnes_iff even inside p.carries.known.2, sum]

theorem stop : ipv6ExtHdr p.protocol = false := by
  rcases p.carries.known.1 with tcp | udp
  · rw [tcp]
    rfl
  · rw [udp]
    rfl

theorem ipv6SkipExthdr_eq : ∃ fragHdr,
    ipv6SkipExthdr memory placed.fragDesc (8 + 40) (p.header.getD 6 0) =
      some (48 + BitVec.ofNat 32 p.extBytes.length, p.protocol,
        ExtHeader.lastFragOff p.exts 0, fragHdr) := by
  have fixed := p.fixed
  have total := placed.total_eq
  have measured : placed.fragDesc.len.toNat = RmnetFragment.total placed.fragDesc.frags :=
    placed.measured
  have few : p.exts.length ≤ p.extBytes.length := ExtHeader.length_le p.exts
  have length : p.bytes.length = p.header.length + (p.extBytes.length + p.payload.length) := by
    rw [bytes, List.length_append, List.length_append]
  have place : (8 + 40 : BitVec 32).toNat = placed.headers.length + p.header.length := by
    rw [placed.eight, fixed]
    rfl
  have behind : (RmnetFragment.bytes memory placed.fragDesc.frags).drop (8 + 40 : BitVec 32).toNat =
      ExtHeader.extBytes p.exts ++ (p.payload ++ placed.padding) := by
    have whole : ∀ padding, p.bytes ++ padding =
        p.header ++ (ExtHeader.extBytes p.exts ++ (p.payload ++ padding)) := by
      intro padding
      rw [bytes, extBytes, List.append_assoc, List.append_assoc]
    rw [placed.stream, place, ← List.drop_drop, List.drop_left, whole, List.drop_left]
  exact skipExthdrLoop_eq placed.measured p.stop (by omega) p.chain behind 0 false

theorem length_bytes :
    p.bytes.length = 40 + p.len := by
  rw [bytes, List.length_append, List.length_append, p.fixed, len]

theorem checksumPkt_eq_ite (lib : WsumLib) :
    checksumPkt lib memory placed.fragDesc =
      if ExtHeader.lastFragOff p.exts 0 = 0 ∧ p.ipLen ≤ 40 + placed.padding.length then
        checksumTransport lib memory placed.fragDesc (BitVec.ofNat 16 p.ipLen) 6 p.protocol
          (BitVec.ofNat 16 p.len)
          (~~~(lib.csumIpv6Magic ((p.header.drop 8).take 16) ((p.header.drop 24).take 16)
            (BitVec.ofNat 32 p.len) p.protocol).setWidth 32)
      else .error .einval := by
  have fixed := p.fixed
  have length := p.length_bytes
  have total := placed.total_eq
  have measured : placed.fragDesc.len.toNat = RmnetFragment.total placed.fragDesc.frags :=
    placed.measured
  have word := placed.fragDesc.len.isLt
  have payloadLen : (Trailer.ntohs (le16 p.header 4)).toNat = p.len := p.payloadLen
  have small := (Trailer.ntohs (le16 p.header 4)).isLt
  have eight : (8 : BitVec 32).toNat = 8 := rfl
  have forty : (40 : BitVec 32).toNat = 40 := rfl
  have version : Checksum.header memory placed.fragDesc 8 1 = some (p.header.take 1) :=
    placed.header_eq rfl (by rw [show (1 : BitVec 32).toNat = 1 from rfl]; omega)
  have ip6h : Checksum.header memory placed.fragDesc 8 40 = some p.header := by
    have found := @Placed.header_eq memory p.bytes placed p.header (p.extBytes ++ p.payload) rfl
      40 (by omega)
    rw [found, forty, List.take_of_length_le (by omega)]
  have first : (p.header.take 1).getD 0 0 = p.header.getD 0 0 := getD_take (by omega)
  have other : ¬p.header.getD 0 0 &&& 0xF0 = 0x40 := by
    rw [p.version]
    decide
  have short : p.extBytes.length < 65536 := by
    rw [len] at payloadLen
    omega
  have start : (48 + BitVec.ofNat 32 p.extBytes.length : BitVec 32).toNat =
      48 + p.extBytes.length := by
    rw [BitVec.toNat_add, BitVec.toNat_ofNat, show (48 : BitVec 32).toNat = 48 from rfl]
    omega
  have positive : ¬(48 + BitVec.ofNat 32 p.extBytes.length : BitVec 32).msb = true := by
    rw [BitVec.msb_eq_true_iff_two_mul_ge, start]
    omega
  have ipLen : (48 + BitVec.ofNat 32 p.extBytes.length : BitVec 32).setWidth 16 =
      BitVec.ofNat 16 p.ipLen := by
    apply BitVec.eq_of_toNat_eq
    rw [BitVec.toNat_setWidth, start, BitVec.toNat_ofNat, Ipv6Packet.ipLen]
    omega
  have csumLen : Trailer.ntohs (le16 p.header 4) = BitVec.ofNat 16 p.len := by
    rw [← payloadLen, BitVec.ofNat_toNat, BitVec.setWidth_eq]
  have csumLen' : (BitVec.ofNat 16 p.len).setWidth 32 = BitVec.ofNat 32 p.len := by
    apply BitVec.eq_of_toNat_eq
    rw [BitVec.toNat_setWidth, BitVec.toNat_ofNat, BitVec.toNat_ofNat]
    omega
  have below : p.ipLen < 65536 := Nat.mod_lt _ (by decide)
  have check : placed.fragDesc.len - 8 <
      BitVec.ofNat 32 p.len + (BitVec.ofNat 16 p.ipLen).setWidth 32 ↔
        ¬p.ipLen ≤ 40 + placed.padding.length := by
    rw [BitVec.lt_def, BitVec.toNat_sub_of_le (by rw [BitVec.le_def, eight]; omega), eight,
      BitVec.toNat_add, BitVec.toNat_setWidth, BitVec.toNat_ofNat, BitVec.toNat_ofNat]
    omega
  obtain ⟨fragHdr, skipped⟩ := p.ipv6SkipExthdr_eq placed
  rw [checksumPkt, version]
  simp only [first]
  rw [if_neg other, if_pos p.version, ip6h]
  dsimp only
  rw [skipped]
  dsimp only
  rw [ipLen, csumLen, csumLen']
  simp only [check]
  by_cases none : ExtHeader.lastFragOff p.exts 0 = 0
  · have fine : ¬((48 + BitVec.ofNat 32 p.extBytes.length : BitVec 32).msb = true ∨
        ExtHeader.lastFragOff p.exts 0 ≠ 0) := fun either => either.elim positive fun some => some none
    rw [if_neg fine]
    by_cases room : p.ipLen ≤ 40 + placed.padding.length
    · rw [if_neg (not_not.mpr room), if_pos ⟨none, room⟩]
    · rw [if_pos room, if_neg fun both => room both.2]
  · rw [if_pos (.inr none), if_neg fun both => none both.1]

theorem checksumPkt_eq (lib : WsumLib)
    (accepted : ExtHeader.lastFragOff p.exts 0 = 0 ∧ p.ipLen ≤ 40 + placed.padding.length) :
    ∃ positive : Bool, checksumPkt lib memory placed.fragDesc = .ok positive ∧
      (positive = true ↔ ¬Unsummed p.protocol (p.range placed) ∧
        p.sum + p.discrepancy placed ≡ 0 [ZMOD 65535]) := by
  have fixed := p.fixed
  have length := p.length_bytes
  have total := placed.total_eq
  have small := (Trailer.ntohs (le16 p.header 4)).isLt
  have payloadLen : (Trailer.ntohs (le16 p.header 4)).toNat = p.len := p.payloadLen
  have below : p.ipLen < 65536 := Nat.mod_lt _ (by decide)
  have ipLen : (BitVec.ofNat 16 p.ipLen).toNat = p.ipLen := by
    rw [BitVec.toNat_ofNat]
    omega
  have csumLen : (BitVec.ofNat 16 p.len).toNat = p.len := by
    rw [BitVec.toNat_ofNat]
    omega
  have pseudoLen : (BitVec.ofNat 32 p.len).toNat = p.len := by
    rw [BitVec.toNat_ofNat]
    omega
  have carried : 8 ≤ p.len := by
    rw [len]
    rcases p.carries with ⟨-, whole⟩ | ⟨-, whole⟩
    · omega
    · omega
  have read : ((RmnetFragment.bytes memory placed.fragDesc.frags).drop
      (8 + (BitVec.ofNat 16 p.ipLen).toNat)).take (BitVec.ofNat 16 p.len).toNat =
        p.range placed := by
    rw [placed.stream, ipLen, csumLen]
    rfl
  have sums := lib.sums_csumIpv6Magic ((p.header.drop 8).take 16) ((p.header.drop 24).take 16)
    (BitVec.ofNat 32 p.len) p.protocol (Trailer.length_slice (by omega))
    (Trailer.length_slice (by omega))
  have transport := checksumTransport_eq lib placed.measured 6 p.carries.known.1 (by omega)
    (by omega) read _ sums
  have sum : p.sum + p.discrepancy placed =
      EndAround.total (littleWords (pseudoHeader6 ((p.header.drop 8).take 16)
        ((p.header.drop 24).take 16) p.len p.protocol)) + little (p.range placed) +
      misplaced 0 (chunks memory placed.fragDesc.frags (8 + p.ipLen) p.len) := by
    rw [Ipv6Packet.sum, discrepancy, total_littleWords]
    change _ = little (p.pseudo p.len) + little (p.range placed) +
      placed.misplaced (8 + p.ipLen) p.len
    ring
  rw [pseudoLen, csumLen, ipLen, ← sum] at transport
  refine ⟨_, (p.checksumPkt_eq_ite placed lib).trans ((if_pos accepted).trans transport), ?_⟩
  split_ifs with empty
  · exact iff_of_false (by decide) fun both => both.1 empty
  · rw [decide_eq_true_iff, and_iff_right empty]

end Ipv6Packet

/-! ### The verdict -/

/-- A packet is judged rightly: for one with a right checksum, the header is right too and there is
no discrepancy, and for another the discrepancy does not make the sum zero. -/
def Ipv4Packet.Judged (p : Ipv4Packet) {memory : Memory} (placed : Placed memory p.bytes) : Prop :=
  (p.Correct → AllOnes p.header ∧
      (Unsummed p.protocol p.payload ∨ p.discrepancy placed ≡ 0 [ZMOD 65535])) ∧
    (¬p.Correct → AllOnes p.header → ¬p.sum + p.discrepancy placed ≡ 0 [ZMOD 65535])

def Ipv6Packet.Judged (p : Ipv6Packet) {memory : Memory} (placed : Placed memory p.bytes) : Prop :=
  (ExtHeader.lastFragOff p.exts 0 = 0 ∧ p.ipLen ≤ 40 + placed.padding.length) ∧
    (p.Correct →
      ¬Unsummed p.protocol (p.range placed) ∧ p.discrepancy placed ≡ 0 [ZMOD 65535]) ∧
    (¬p.Correct → ¬Unsummed p.protocol (p.range placed) →
      ¬p.sum + p.discrepancy placed ≡ 0 [ZMOD 65535])

theorem add_modEq_zero_iff {sum discrepancy : ℤ} (zero : sum ≡ 0 [ZMOD 65535]) :
    sum + discrepancy ≡ 0 [ZMOD 65535] ↔ discrepancy ≡ 0 [ZMOD 65535] := by
  unfold Int.ModEq at *
  omega

theorem Ipv4Packet.verdict_iff (p : Ipv4Packet) {memory : Memory} (placed : Placed memory p.bytes)
    (lib : WsumLib) :
    Verdict (checksumPkt lib memory placed.fragDesc) p.Correct ↔ p.Judged placed := by
  obtain ⟨positive, result, spec⟩ := p.checksumPkt_eq placed lib
  rw [result, verdict_ok_iff, spec, Judged]
  by_cases right : p.Correct
  · rw [iff_true_right right, imp_iff_right right, and_iff_left fun wrong => absurd right wrong]
    refine and_congr_right fun _ => ?_
    by_cases empty : Unsummed p.protocol p.payload
    · exact iff_of_true (.inl empty) (.inl empty)
    · have zero := (p.correct_iff.mp right).resolve_left empty
      rw [or_iff_right empty, or_iff_right empty, add_modEq_zero_iff zero]
  · have summed : ¬Unsummed p.protocol p.payload := fun empty =>
      right (p.correct_iff.mpr (.inl empty))
    rw [iff_false_right right, imp_iff_right right, and_iff_right fun other => absurd other right,
      or_iff_right summed, not_and]

theorem Ipv6Packet.verdict_iff (p : Ipv6Packet) {memory : Memory} (placed : Placed memory p.bytes)
    (lib : WsumLib) :
    Verdict (checksumPkt lib memory placed.fragDesc) p.Correct ↔ p.Judged placed := by
  by_cases accepted : ExtHeader.lastFragOff p.exts 0 = 0 ∧ p.ipLen ≤ 40 + placed.padding.length
  · obtain ⟨positive, result, spec⟩ := p.checksumPkt_eq placed lib accepted
    rw [result, verdict_ok_iff, spec, Judged, and_iff_right accepted]
    by_cases right : p.Correct
    · have zero := (p.correct_iff.mp right).2
      rw [iff_true_right right, imp_iff_right right, and_iff_left fun wrong => absurd right wrong,
        add_modEq_zero_iff zero]
    · rw [iff_false_right right, imp_iff_right right, and_iff_right fun other => absurd other right,
        not_and]
  · rw [p.checksumPkt_eq_ite placed lib, if_neg accepted]
    exact iff_of_false (not_verdict_error _ _) fun judged => accepted judged.1

/-- The verdict on packets of both versions, in any fragments. -/
theorem checksumPkt_verdict_iff (lib : WsumLib) (memory : Memory) (p4 : Ipv4Packet)
    (placed4 : Placed memory p4.bytes) (p6 : Ipv6Packet) (placed6 : Placed memory p6.bytes) :
    (Verdict (checksumPkt lib memory placed4.fragDesc) p4.Correct ↔ p4.Judged placed4) ∧
      (Verdict (checksumPkt lib memory placed6.fragDesc) p6.Correct ↔ p6.Judged placed6) :=
  ⟨p4.verdict_iff placed4 lib, p6.verdict_iff placed6 lib⟩

def datagram : Ipv6Packet where
  header := [0x60, 0, 0, 0, 0, 8, 17, 64, 0, 0, 0, 0, 0, 0, 0, 0, 0, 0, 0, 0, 0, 0, 0, 1, 0, 0, 0, 0,
    0, 0, 0, 0, 0, 0, 0, 0, 0, 0, 0, 2]
  exts := []
  payload := [0, 7, 0, 9, 0, 8, 255, 203]
  protocol := IPPROTO_UDP
  fixed := by decide
  version := by decide
  payloadLen := by decide
  chain := rfl
  carries := .inr ⟨by decide, by decide⟩

def datagramMemory : Memory := fun _ off => (List.replicate 8 0 ++ datagram.bytes).getD off 0

def unpadded : Placed datagramMemory datagram.bytes where
  fragDesc := ⟨[⟨0, 0, 56, by decide⟩], 56⟩
  headers := List.replicate 8 0
  padding := []
  measured := rfl
  eight := rfl
  stream := by decide

theorem unpadded_not_verdict :
    datagram.Correct ∧
      ¬Verdict (checksumPkt .summing datagramMemory unpadded.fragDesc) datagram.Correct := by
  constructor
  · rw [datagram.correct_iff]
    decide
  · rw [datagram.checksumPkt_eq_ite unpadded, if_neg (by decide)]
    exact not_verdict_error _ _

end VendorModules.Rmnet.Checksum
