import VendorModules.Rmnet.Fragments

namespace VendorModules.Rmnet

open FragDescriptor

/-! The header of a coalesced frame, and the loops that take the frame apart. -/

def RMNET_MAP_V5_MAX_NLOS : Nat := 6

def RMNET_MAP_V5_MAX_PACKETS : Nat := 48

/-- `struct rmnet_map_v5_nl_pair` -/
structure NlPair where
  pktLen : BitVec 16
  csumErrorBitmap : BitVec 8
  numPackets : BitVec 8
  deriving DecidableEq, Repr

/-- `struct rmnet_map_v5_coal_header`, with the fields that the check and the loops read. -/
structure CoalHeader where
  numNlos : BitVec 3
  nlPairs : Vector NlPair RMNET_MAP_V5_MAX_NLOS
  deriving DecidableEq, Repr

/-- The loop of `rmnet_frag_data_check_coal_header`. -/
def checkLoop : List NlPair → Nat → BitVec 64 → BitVec 8 → Except Errno (BitVec 64)
  | [], _, mask, _ => .ok mask
  | pair :: pairs, i, mask, pkts =>
    let mask := mask ||| pair.csumErrorBitmap.setWidth 64 <<< (8 * i)
    let pkts := pkts + pair.numPackets
    if RMNET_MAP_V5_MAX_PACKETS < pkts.toNat then .error .einval
    else checkLoop pairs (i + 1) mask pkts

/-- `rmnet_frag_data_check_coal_header`, for what `rmnet_frag_header_ptr` finds: the error mask. -/
def checkCoalHeader : Option CoalHeader → Except Errno (BitVec 64)
  | none => .error .einval
  | some coalHdr =>
    if coalHdr.numNlos.toNat = 0 ∨ RMNET_MAP_V5_MAX_NLOS < coalHdr.numNlos.toNat then
      .error .einval
    else checkLoop coalHdr.nlPairs.toList 0 0 0

/-- A call of `__rmnet_frag_segment_data`. -/
structure SegmentCall where
  gsoSize : BitVec 16
  gsoSegs : BitVec 16
  pktId : BitVec 8
  csumValid : Bool
  deriving DecidableEq, Repr

/-- What the loops of `rmnet_frag_segment_coal_data` carry, with the rounds they made: what
each found in `csum_err`. -/
structure Segmenting where
  gsoSize : BitVec 16
  gsoSegs : BitVec 16
  totalPkt : BitVec 8
  nloErrMask : BitVec 64
  calls : List SegmentCall
  rounds : List Bool

namespace Segmenting

/-- `__rmnet_frag_segment_data`, which keeps `gso_segs` when it fails. -/
def segmentData (made : Nat → Bool) (seg : Segmenting) (csumValid : Bool) : Segmenting :=
  { seg with
    calls := seg.calls ++ [⟨seg.gsoSize, seg.gsoSegs, seg.totalPkt, csumValid⟩]
    gsoSegs := if made seg.calls.length then 0 else seg.gsoSegs }

def round (gro : Bool) (made : Nat → Bool) (seg : Segmenting) : Segmenting :=
  let csumErr := seg.nloErrMask.getLsbD 0
  let done :=
    if !gro then segmentData made { seg with gsoSegs := 1 } !csumErr
    else if csumErr then
      let good := if seg.gsoSegs ≠ 0 then segmentData made seg true else seg
      segmentData made { good with gsoSegs := 1 } false
    else { seg with gsoSegs := seg.gsoSegs + 1 }
  { done with
    totalPkt := done.totalPkt + 1
    nloErrMask := done.nloErrMask >>> 1
    rounds := done.rounds ++ [csumErr] }

def packets (gro : Bool) (made : Nat → Bool) : Nat → Segmenting → Segmenting
  | 0, seg => seg
  | left + 1, seg => packets gro made left (seg.round gro made)

def nlos (gro : Bool) (made : Nat → Bool) (hdrLen : BitVec 16) :
    List NlPair → Segmenting → Segmenting
  | [], seg => seg
  | pair :: pairs, seg =>
    let seg := packets gro made pair.numPackets.toNat { seg with gsoSize := pair.pktLen - hdrLen }
    nlos gro made hdrLen pairs (if seg.gsoSegs ≠ 0 then seg.segmentData made true else seg)

end Segmenting

/-- The loops of `rmnet_frag_segment_coal_data`, where `made` tells which segments can be made
and `hdrLen` is the length of the network and transport headers. -/
def segmentCoalData (gro : Bool) (made : Nat → Bool) (hdrLen gsoSegs : BitVec 16)
    (coalHdr : CoalHeader) (nloErrMask : BitVec 64) : Segmenting :=
  Segmenting.nlos gro made hdrLen (coalHdr.nlPairs.toList.take coalHdr.numNlos.toNat)
    ⟨0, gsoSegs, 0, nloErrMask, [], []⟩

/-! ### What is accepted -/

def packetCount (pairs : List NlPair) : Nat := (pairs.map fun pair => pair.numPackets.toNat).sum

@[simp] theorem packetCount_nil : packetCount [] = 0 := rfl

@[simp] theorem packetCount_cons (pair : NlPair) (pairs : List NlPair) :
    packetCount (pair :: pairs) = pair.numPackets.toNat + packetCount pairs :=
  List.sum_cons

theorem packetCount_take_le (pairs : List NlPair) (k : Nat) :
    packetCount (pairs.take k) ≤ packetCount pairs := by
  induction pairs generalizing k with
  | nil => rw [List.take_nil]
  | cons pair pairs ih =>
    cases k with
    | zero => exact Nat.zero_le _
    | succ k =>
      rw [List.take_succ_cons, packetCount_cons, packetCount_cons]
      exact Nat.add_le_add_left (ih k) _

def errorBit (pairs : List NlPair) (j : Nat) : Bool :=
  (pairs[j / 8]?.map fun pair => pair.csumErrorBitmap.getLsbD (j % 8)).getD false

theorem checkLoop_accepts_iff (pairs : List NlPair) (i : Nat) (mask : BitVec 64)
    (pkts : BitVec 8) :
    (∃ result, checkLoop pairs i mask pkts = .ok result) ↔
      ∀ k < pairs.length, (pkts.toNat + packetCount (pairs.take (k + 1))) % 256 ≤
        RMNET_MAP_V5_MAX_PACKETS := by
  induction pairs generalizing i mask pkts with
  | nil => exact ⟨fun _ k inside => absurd inside (Nat.not_lt_zero k), fun _ => ⟨mask, rfl⟩⟩
  | cons pair pairs ih =>
    have sum : (pkts + pair.numPackets).toNat = (pkts.toNat + pair.numPackets.toNat) % 256 :=
      BitVec.toNat_add pkts pair.numPackets
    unfold checkLoop
    by_cases many : RMNET_MAP_V5_MAX_PACKETS < (pkts + pair.numPackets).toNat
    · rw [if_pos many]
      refine iff_of_false (fun ⟨result, rejected⟩ => nomatch rejected) fun few => ?_
      have first := few 0 (Nat.succ_pos _)
      rw [List.take_succ_cons, List.take_zero, packetCount_cons, packetCount_nil] at first
      omega
    · rw [if_neg many, ih]
      have shift : ∀ k, ((pkts + pair.numPackets).toNat + packetCount (pairs.take k)) % 256 =
          (pkts.toNat + packetCount ((pair :: pairs).take (k + 1))) % 256 := by
        intro k
        rw [List.take_succ_cons, packetCount_cons, sum]
        omega
      constructor
      · intro few k inside
        cases k with
        | zero =>
          rw [← shift 0, List.take_zero, packetCount_nil]
          omega
        | succ k =>
          rw [← shift]
          exact few k (Nat.lt_of_succ_lt_succ inside)
      · intro few k inside
        rw [shift]
        exact few (k + 1) (Nat.succ_lt_succ inside)

theorem getLsbD_of_checkLoop {pairs : List NlPair} {i : Nat} {mask result : BitVec 64}
    {pkts : BitVec 8} (accepted : checkLoop pairs i mask pkts = .ok result) {j : Nat}
    (inside : j < 64) :
    result.getLsbD j = (mask.getLsbD j || (decide (8 * i ≤ j) && errorBit pairs (j - 8 * i))) := by
  induction pairs generalizing i mask pkts with
  | nil =>
    cases accepted
    simp [errorBit]
  | cons pair pairs ih =>
    unfold checkLoop at accepted
    dsimp only at accepted
    split at accepted
    · cases accepted
    · rw [ih accepted, BitVec.getLsbD_or, BitVec.getLsbD_shiftLeft, BitVec.getLsbD_setWidth]
      by_cases before : j < 8 * i
      · have later : ¬8 * i ≤ j := Nat.not_le.2 before
        have behind : ¬8 * (i + 1) ≤ j := by omega
        simp [before, later, behind]
      · have start : 8 * i ≤ j := Nat.not_lt.1 before
        by_cases own : j - 8 * i < 8
        · have behind : ¬8 * (i + 1) ≤ j := by omega
          have group : (j - 8 * i) / 8 = 0 := by omega
          have bit : (j - 8 * i) % 8 = j - 8 * i := Nat.mod_eq_of_lt own
          have low : j - 8 * i < 64 := by omega
          simp [errorBit, inside, before, start, behind, group, bit, low]
        · have behind : 8 * (i + 1) ≤ j := by omega
          have group : (j - 8 * i) / 8 = (j - 8 * (i + 1)) / 8 + 1 := by omega
          have bit : (j - 8 * i) % 8 = (j - 8 * (i + 1)) % 8 := by omega
          have none : pair.csumErrorBitmap.getLsbD (j - 8 * i) = false :=
            BitVec.getLsbD_of_ge _ _ (Nat.not_lt.1 own)
          simp [errorBit, start, behind, group, bit, none]

/-! ### The rounds of the loops -/

namespace Segmenting

variable {gro : Bool} {made : Nat → Bool} {hdrLen : BitVec 16}

theorem round_nloErrMask (seg : Segmenting) :
    (seg.round gro made).nloErrMask = seg.nloErrMask >>> 1 := by
  unfold round
  dsimp only
  split_ifs <;> rfl

theorem round_rounds (seg : Segmenting) :
    (seg.round gro made).rounds = seg.rounds ++ [seg.nloErrMask.getLsbD 0] := by
  unfold round
  dsimp only
  split_ifs <;> rfl

def bits (mask : BitVec 64) (count : Nat) : List Bool := (List.range count).map mask.getLsbD

theorem bits_add (mask : BitVec 64) (count more : Nat) :
    bits mask (count + more) = bits mask count ++ bits (mask >>> count) more := by
  unfold bits
  rw [List.range_add, List.map_append, List.map_map]
  congr 1
  apply List.map_congr_left
  intro i _
  rw [Function.comp_apply, BitVec.getLsbD_ushiftRight]

theorem packets_spec (count : Nat) (seg : Segmenting) :
    (packets gro made count seg).nloErrMask = seg.nloErrMask >>> count ∧
      (packets gro made count seg).rounds = seg.rounds ++ bits seg.nloErrMask count := by
  induction count generalizing seg with
  | zero => exact ⟨(BitVec.ushiftRight_zero _).symm, (List.append_nil _).symm⟩
  | succ count ih =>
    obtain ⟨mask, rounds⟩ := ih (seg.round gro made)
    unfold packets
    rw [round_nloErrMask] at mask rounds
    rw [mask, rounds, round_rounds, List.append_assoc, Nat.add_comm count 1, bits_add,
      BitVec.shiftRight_add]
    exact ⟨rfl, rfl⟩

theorem nlos_rounds (pairs : List NlPair) (seg : Segmenting) :
    (nlos gro made hdrLen pairs seg).rounds =
      seg.rounds ++ bits seg.nloErrMask (packetCount pairs) := by
  induction pairs generalizing seg with
  | nil => exact (List.append_nil _).symm
  | cons pair pairs ih =>
    obtain ⟨mask, rounds⟩ := @packets_spec gro made pair.numPackets.toNat
      { seg with gsoSize := pair.pktLen - hdrLen }
    unfold nlos
    dsimp only
    rw [ih, packetCount_cons, bits_add, ← List.append_assoc, ← rounds, ← mask]
    split <;> rfl

end Segmenting

theorem segmentCoalData_rounds (gro : Bool) (made : Nat → Bool) (hdrLen gsoSegs : BitVec 16)
    (coalHdr : CoalHeader) (mask : BitVec 64) :
    (segmentCoalData gro made hdrLen gsoSegs coalHdr mask).rounds =
      Segmenting.bits mask
        (packetCount (coalHdr.nlPairs.toList.take coalHdr.numNlos.toNat)) := by
  unfold segmentCoalData
  rw [Segmenting.nlos_rounds, List.nil_append]

/-! ### The bounds -/

namespace CoalHeader

structure Bounds (coalHdr : CoalHeader) (mask : BitVec 64) : Prop where
  numNlos_pos : 1 ≤ coalHdr.numNlos.toNat
  numNlos_le : coalHdr.numNlos.toNat ≤ RMNET_MAP_V5_MAX_NLOS
  packets_le : packetCount coalHdr.nlPairs.toList ≤ RMNET_MAP_V5_MAX_PACKETS
  rounds_le : ∀ gro made hdrLen gsoSegs,
    (segmentCoalData gro made hdrLen gsoSegs coalHdr mask).rounds.length ≤
      RMNET_MAP_V5_MAX_PACKETS
  /-- Each packet has a group whose bitmap has its bit. -/
  bit : ∀ gro made hdrLen gsoSegs i csumErr,
    (segmentCoalData gro made hdrLen gsoSegs coalHdr mask).rounds[i]? = some csumErr →
      ∃ pair, coalHdr.nlPairs.toList[i / 8]? = some pair ∧
        csumErr = pair.csumErrorBitmap.getLsbD (i % 8)

def Bounded (coalHdr : CoalHeader) : Prop :=
  ∀ mask, checkCoalHeader (some coalHdr) = .ok mask → coalHdr.Bounds mask

/-- The packets are more than the counter can count, and what is left of them in the counter is
few behind each group. -/
def Wraps (coalHdr : CoalHeader) : Prop :=
  (1 ≤ coalHdr.numNlos.toNat ∧ coalHdr.numNlos.toNat ≤ RMNET_MAP_V5_MAX_NLOS) ∧
    256 ≤ packetCount coalHdr.nlPairs.toList ∧
    ∀ k < RMNET_MAP_V5_MAX_NLOS,
      packetCount (coalHdr.nlPairs.toList.take (k + 1)) % 256 ≤ RMNET_MAP_V5_MAX_PACKETS

instance : DecidablePred Wraps := fun _ => inferInstanceAs (Decidable (_ ∧ _ ∧ _))

theorem accepts_iff (coalHdr : CoalHeader) :
    (∃ mask, checkCoalHeader (some coalHdr) = .ok mask) ↔
      (1 ≤ coalHdr.numNlos.toNat ∧ coalHdr.numNlos.toNat ≤ RMNET_MAP_V5_MAX_NLOS) ∧
        ∀ k < RMNET_MAP_V5_MAX_NLOS,
          packetCount (coalHdr.nlPairs.toList.take (k + 1)) % 256 ≤ RMNET_MAP_V5_MAX_PACKETS := by
  unfold checkCoalHeader
  dsimp only
  by_cases wrong :
      coalHdr.numNlos.toNat = 0 ∨ RMNET_MAP_V5_MAX_NLOS < coalHdr.numNlos.toNat
  · rw [if_pos wrong]
    refine iff_of_false (fun ⟨mask, rejected⟩ => nomatch rejected) fun ⟨⟨low, high⟩, _⟩ => ?_
    omega
  · rw [if_neg wrong, checkLoop_accepts_iff, Vector.length_toList]
    simp only [show (0 : BitVec 8).toNat = 0 from rfl, Nat.zero_add]
    exact ⟨fun few => ⟨by omega, few⟩, And.right⟩

theorem loop_of_accepted {coalHdr : CoalHeader} {mask : BitVec 64}
    (accepted : checkCoalHeader (some coalHdr) = .ok mask) :
    checkLoop coalHdr.nlPairs.toList 0 0 0 = .ok mask := by
  unfold checkCoalHeader at accepted
  dsimp only at accepted
  split at accepted
  · cases accepted
  · exact accepted

theorem bounds_of_accepted {coalHdr : CoalHeader} {mask : BitVec 64}
    (accepted : checkCoalHeader (some coalHdr) = .ok mask)
    (true_le : packetCount coalHdr.nlPairs.toList ≤ RMNET_MAP_V5_MAX_PACKETS) :
    coalHdr.Bounds mask := by
  have nlos := ((accepts_iff coalHdr).1 ⟨mask, accepted⟩).1
  have rounds := fun gro made hdrLen gsoSegs =>
    segmentCoalData_rounds gro made hdrLen gsoSegs coalHdr mask
  have few := Nat.le_trans
    (packetCount_take_le coalHdr.nlPairs.toList coalHdr.numNlos.toNat) true_le
  refine ⟨nlos.1, nlos.2, true_le, fun gro made hdrLen gsoSegs => ?_,
    fun gro made hdrLen gsoSegs i csumErr found => ?_⟩
  · rw [rounds, Segmenting.bits, List.length_map, List.length_range]
    exact few
  · rw [rounds, Segmenting.bits, List.getElem?_map] at found
    cases place : (List.range (packetCount
        (coalHdr.nlPairs.toList.take coalHdr.numNlos.toNat)))[i]? with
    | none =>
      rw [place] at found
      cases found
    | some j =>
      obtain ⟨inside, same⟩ := List.getElem?_eq_some_iff.1 place
      rw [List.length_range] at inside
      rw [List.getElem_range] at same
      rw [place, ← same, Option.map_some, Option.some.injEq] at found
      have fits : i < 48 := Nat.lt_of_lt_of_le inside few
      have group : i / 8 < coalHdr.nlPairs.toList.length := by
        rw [Vector.length_toList]
        exact Nat.div_lt_of_lt_mul fits
      refine ⟨_, List.getElem?_eq_getElem group, ?_⟩
      rw [← found, getLsbD_of_checkLoop (loop_of_accepted accepted) (by omega)]
      simp [errorBit, List.getElem?_eq_getElem group]

/-- Exactly the headers whose packets wrap around the counter pass the check with more packets
than there may be. -/
theorem bounded_iff (coalHdr : CoalHeader) : coalHdr.Bounded ↔ ¬coalHdr.Wraps := by
  constructor
  · rintro bounded ⟨nlos, many, few⟩
    obtain ⟨mask, accepted⟩ := (accepts_iff coalHdr).2 ⟨nlos, few⟩
    have bound := (bounded mask accepted).packets_le
    exact absurd (Nat.le_trans many bound) (by decide)
  · intro plain mask accepted
    apply bounds_of_accepted accepted
    obtain ⟨nlos, few⟩ := (accepts_iff coalHdr).1 ⟨mask, accepted⟩
    have small : packetCount coalHdr.nlPairs.toList < 256 := by
      by_contra large
      exact plain ⟨nlos, Nat.not_lt.1 large, few⟩
    have last := few 5 (by decide)
    have whole : coalHdr.nlPairs.toList.take (5 + 1) = coalHdr.nlPairs.toList :=
      List.take_of_length_le (Nat.le_of_eq coalHdr.nlPairs.length_toList)
    rwa [whole, Nat.mod_eq_of_lt small] at last

def wrapping : CoalHeader where
  numNlos := 2
  nlPairs := #v[⟨1500, 0, 48⟩, ⟨1500, 0, 255⟩, ⟨0, 0, 0⟩, ⟨0, 0, 0⟩, ⟨0, 0, 0⟩, ⟨0, 0, 0⟩]

theorem wrapping_not_bounded :
    checkCoalHeader (some wrapping) = .ok 0 ∧ ¬wrapping.Bounded := by
  have accepted : checkCoalHeader (some wrapping) = .ok 0 := by decide
  refine ⟨accepted, fun bounded => ?_⟩
  have many := (bounded 0 accepted).packets_le
  exact absurd many (by decide)

end CoalHeader

end VendorModules.Rmnet
