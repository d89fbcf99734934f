import VendorModules.Reo.Lists

namespace VendorModules.Reo

open Lib

abbrev PktCtr := BitVec 16

/-- `mgmt_rx_reo_compare_pkt_ctrs_gte` -/
def comparePktCtrsGte (ctr1 ctr2 : PktCtr) : Bool :=
  (ctr1 - ctr2).toNat ≤ 0x8000

/-- `mgmt_rx_reo_subtract_pkt_ctrs` -/
def subtractPktCtrs (ctr1 ctr2 : PktCtr) : Int :=
  let delta := (ctr1 - ctr2).toNat
  if delta > 0x8000 then (delta : Int) - 0x10000 else delta

/-- `struct mgmt_rx_reo_snapshot_params` -/
structure SnapshotParams where
  valid : Bool
  mgmtPktCtr : PktCtr
  globalTimestamp : Timestamp
  deriving DecidableEq, Repr

namespace SnapshotParams

def tsGte (ss1 ss2 : SnapshotParams) : Bool :=
  compareGlobalTimestampsGte ss1.globalTimestamp ss2.globalTimestamp

def ctrGte (ss1 ss2 : SnapshotParams) : Bool :=
  comparePktCtrsGte ss1.mgmtPktCtr ss2.mgmtPktCtr

def invalidate (ss : SnapshotParams) : SnapshotParams := { ss with valid := false }

end SnapshotParams

structure Snapshots where
  macHw : SnapshotParams
  fwForwarded : SnapshotParams
  fwConsumed : SnapshotParams
  host : SnapshotParams
  deriving DecidableEq, Repr

namespace Snapshots

/-- The host snapshot after the first section of `mgmt_rx_reo_invalidate_stale_snapshots`. -/
def hostAfter (macHw host : SnapshotParams) : SnapshotParams :=
  if host.valid then
    if !macHw.tsGte host || !macHw.ctrGte host then host.invalidate else host
  else host

def fwAfter (macHw host fw : SnapshotParams) : SnapshotParams :=
  if fw.valid then
    let fw := if !macHw.tsGte fw || !macHw.ctrGte fw then fw.invalidate else fw
    if host.valid && fw.valid && (host.tsGte fw != host.ctrGte fw) then fw.invalidate else fw
  else fw

/-- `mgmt_rx_reo_invalidate_stale_snapshots` -/
def invalidateStale (s : Snapshots) : Snapshots :=
  if !s.macHw.valid then s
  else
    let host := hostAfter s.macHw s.host
    { macHw := s.macHw
      fwForwarded := fwAfter s.macHw host s.fwForwarded
      fwConsumed := fwAfter s.macHw host s.fwConsumed
      host := host }

/-- `mgmt_rx_reo_snapshots_check_sanity` -/
def checkSanity (s : Snapshots) : Bool :=
  let behindMacHw := fun ss : SnapshotParams =>
    ss.valid && (!s.macHw.tsGte ss || !s.macHw.ctrGte ss)
  if !s.macHw.valid then
    !(s.fwForwarded.valid || s.fwConsumed.valid || s.host.valid)
  else if !s.fwForwarded.valid && !s.fwConsumed.valid then !s.host.valid
  else if behindMacHw s.fwForwarded || behindMacHw s.fwConsumed || behindMacHw s.host then false
  else if !s.host.valid then true
  else if !s.fwConsumed.valid then
    s.fwForwarded.tsGte s.host && s.fwForwarded.ctrGte s.host
  else if !s.fwForwarded.valid then
    s.fwConsumed.tsGte s.host && s.fwConsumed.ctrGte s.host
  else
    (s.fwConsumed.tsGte s.host || s.fwForwarded.tsGte s.host) &&
      (s.fwConsumed.ctrGte s.host || s.fwForwarded.ctrGte s.host)

end Snapshots

structure Pending where
  frames : Int
  asserted : Bool
  deriving DecidableEq, Repr

namespace Pending

/-- `frames_pending = frames; qdf_assert_always(frames_pending >= 0)` -/
def assign (pending : Pending) (frames : Int) : Pending where
  frames := frames
  asserted := pending.asserted && decide (0 ≤ frames)

def boundConsumed (inTs : Timestamp) (s : Snapshots) (pending : Pending) : Pending :=
  if s.fwConsumed.valid && compareGlobalTimestampsGte s.fwConsumed.globalTimestamp inTs then
    let pending := pending.assign (subtractPktCtrs s.fwConsumed.mgmtPktCtr s.host.mgmtPktCtr - 1)
    if s.fwForwarded.valid &&
        !compareGlobalTimestampsGte s.fwForwarded.globalTimestamp inTs then
      let frames := subtractPktCtrs s.fwForwarded.mgmtPktCtr s.host.mgmtPktCtr
      { pending with frames := if frames < 0 then 0 else frames }
    else pending
  else pending

def boundForwarded (inTs : Timestamp) (s : Snapshots) (pending : Pending) : Pending :=
  if s.fwForwarded.valid && compareGlobalTimestampsGte s.fwForwarded.globalTimestamp inTs then
    let delta := subtractPktCtrs s.fwForwarded.mgmtPktCtr s.host.mgmtPktCtr - 1
    ({ pending with asserted := pending.asserted && decide (0 ≤ delta) } : Pending).assign
      (min pending.frames delta)
  else pending

def ofSnapshots (inTs : Timestamp) (s : Snapshots) : Pending :=
  let pending : Pending := assign { frames := 0, asserted := true }
    (subtractPktCtrs s.macHw.mgmtPktCtr s.host.mgmtPktCtr)
  if pending.frames ≠ 0 && compareGlobalTimestampsGte s.macHw.globalTimestamp inTs then
    boundForwarded inTs s (boundConsumed inTs s (pending.assign (pending.frames - 1)))
  else pending

end Pending

def uintMax : Nat := 2 ^ 32 - 1

/-- The wait count of another link in a round of the loop of
`wlan_mgmt_rx_reo_algo_calculate_wait_count`. -/
def pendingOnLink (inTs : Timestamp) (s : Snapshots) : Pending :=
  let none : Pending := { frames := 0, asserted := true }
  if !s.macHw.valid then none
  else if !s.host.valid then { frames := uintMax, asserted := true }
  else if subtractPktCtrs s.macHw.mgmtPktCtr s.host.mgmtPktCtr = 0 then none
  else if compareGlobalTimestampsGte s.host.globalTimestamp inTs then none
  else
    let pending := Pending.ofSnapshots inTs s
    pending.assign pending.frames

inductive LinkView
  /-- The link is not valid. -/
  | invalid
  /-- The link has no pdev, or its initialisation is in progress. -/
  | absent
  /-- The pdev has no private object. -/
  | noContext
  /-- One of the shared snapshots cannot be read. -/
  | unreadable
  | shared (macHw fwForwarded fwConsumed : SnapshotParams)
  deriving DecidableEq, Repr

/-- How `wlan_mgmt_rx_reo_algo_calculate_wait_count` ends. -/
inductive CountStatus
  | success
  | failure
  /-- `handle_snapshot_sanity_failures` marked the frame to be dropped. -/
  | sanityFailure
  deriving DecidableEq, Repr

structure Counting where
  hosts : Link → SnapshotParams
  waitCount : WaitCount
  asserted : Bool
  status : CountStatus

namespace Counting

/-- The section `update_pending_frames`; the counts are those of a loop whose assertions
held. -/
def add (counting : Counting) (link : Link) (pending : Pending) : Counting :=
  { counting with
    waitCount := counting.waitCount.addPending link pending.frames.toNat
    asserted := counting.asserted && pending.asserted }

def links (inTs : Timestamp) (inLink : Link) (view : Link → LinkView) :
    List Link → Counting → Counting
  | [], counting => counting
  | link :: rest, counting =>
    match view link with
    | .invalid | .absent =>
      links inTs inLink view rest (counting.add link { frames := 0, asserted := true })
    | .noContext | .unreadable => { counting with status := .failure }
    | .shared macHw fwForwarded fwConsumed =>
      let s := Snapshots.invalidateStale
        { macHw := macHw, fwForwarded := fwForwarded, fwConsumed := fwConsumed,
          host := counting.hosts link }
      let counting :=
        { counting with hosts := Function.update counting.hosts link s.host }
      if !s.checkSanity then { counting with status := .sanityFailure }
      else if link = inLink then
        links inTs inLink view rest (counting.add link { frames := 0, asserted := true })
      else links inTs inLink view rest (counting.add link (pendingOnLink inTs s))

end Counting

/-- `wlan_mgmt_rx_reo_algo_calculate_wait_count` -/
def calculateWaitCount (inTs : Timestamp) (inLink : Link) (view : Link → LinkView)
    (hosts : Link → SnapshotParams) : Counting :=
  let counting : Counting :=
    { hosts := hosts, waitCount := .zero, asserted := true, status := .success }
  match view inLink with
  | .invalid | .noContext => { counting with status := .failure }
  | _ => Counting.links inTs inLink view (List.finRange maxMloLinks) counting

/-! ### When the assertions hold -/

variable {inTs : Timestamp} {macHw host fw : SnapshotParams} {s : Snapshots}

@[simp] theorem compareGlobalTimestampsGte_iff_toNat {ts1 ts2 : Timestamp} :
    compareGlobalTimestampsGte ts1 ts2 = true ↔ (ts1 - ts2).toNat ≤ 0x80000000 :=
  decide_eq_true_iff

@[simp] theorem comparePktCtrsGte_iff {ctr1 ctr2 : PktCtr} :
    comparePktCtrsGte ctr1 ctr2 = true ↔ (ctr1 - ctr2).toNat ≤ 0x8000 :=
  decide_eq_true_iff

theorem subtractPktCtrs_nonneg_iff {ctr1 ctr2 : PktCtr} :
    0 ≤ subtractPktCtrs ctr1 ctr2 ↔ comparePktCtrsGte ctr1 ctr2 = true := by
  have range := (ctr1 - ctr2).isLt
  rw [comparePktCtrsGte_iff]
  unfold subtractPktCtrs
  dsimp only
  split <;> omega

theorem subtractPktCtrs_eq_zero_iff {ctr1 ctr2 : PktCtr} :
    subtractPktCtrs ctr1 ctr2 = 0 ↔ ctr1 = ctr2 := by
  have range := (ctr1 - ctr2).isLt
  have apart := BitVec.toNat_sub ctr1 ctr2
  have one := ctr1.isLt
  have two := ctr2.isLt
  rw [← BitVec.toNat_inj]
  unfold subtractPktCtrs
  dsimp only
  split <;> omega

theorem subtractPktCtrs_nonpos_iff {ctr1 ctr2 : PktCtr} :
    subtractPktCtrs ctr1 ctr2 ≤ 0 ↔ (ctr2 - ctr1).toNat < 0x8000 := by
  have apart := BitVec.toNat_sub ctr1 ctr2
  have back := BitVec.toNat_sub ctr2 ctr1
  have one := ctr1.isLt
  have two := ctr2.isLt
  unfold subtractPktCtrs
  dsimp only
  split <;> omega

/-- What a firmware snapshot is like at which an assertion fails: its timestamp is not before
that of the frame, as the host's is, and yet its counter is not past the host's. -/
structure Snapshots.Behind (inTs : Timestamp) (s : Snapshots) (fw : SnapshotParams) : Prop where
  macValid : s.macHw.valid = true
  hostValid : s.host.valid = true
  unseen : s.macHw.mgmtPktCtr ≠ s.host.mgmtPktCtr
  hostBefore : ¬(s.host.globalTimestamp - inTs).toNat ≤ 0x80000000
  macAfter : (s.macHw.globalTimestamp - inTs).toNat ≤ 0x80000000
  fwValid : fw.valid = true
  fwAfter : (fw.globalTimestamp - inTs).toNat ≤ 0x80000000
  notPast : (s.host.mgmtPktCtr - fw.mgmtPktCtr).toNat < 0x8000

namespace Pending

def Past (inTs : Timestamp) (host fw : SnapshotParams) : Prop :=
  fw.valid = true → (fw.globalTimestamp - inTs).toNat ≤ 0x80000000 →
    ¬subtractPktCtrs fw.mgmtPktCtr host.mgmtPktCtr ≤ 0

structure Sound (pending : Pending) : Prop where
  asserted : pending.asserted = true
  nonneg : 0 ≤ pending.frames

variable {pending : Pending}

theorem assign_sound_iff {frames : Int} :
    (pending.assign frames).Sound ↔ pending.asserted = true ∧ 0 ≤ frames := by
  constructor
  · intro sound
    have held := sound.asserted
    simp only [assign, Bool.and_eq_true, decide_eq_true_eq] at held
    exact held
  · rintro ⟨asserted, nonneg⟩
    exact ⟨by simp [assign, asserted, nonneg], nonneg⟩

theorem assign_asserted_iff {frames : Int} :
    (pending.assign frames).asserted = true ↔ (pending.assign frames).Sound :=
  ⟨fun held => assign_sound_iff.2 (by simpa [assign] using held), Sound.asserted⟩

theorem boundConsumed_sound_iff (sound : pending.Sound) :
    (boundConsumed inTs s pending).Sound ↔ Past inTs s.host s.fwConsumed := by
  unfold boundConsumed Past
  by_cases holds : (s.fwConsumed.valid && compareGlobalTimestampsGte
      s.fwConsumed.globalTimestamp inTs) = true
  · rw [if_pos holds]
    rw [Bool.and_eq_true, compareGlobalTimestampsGte_iff_toNat] at holds
    have bound : (pending.assign
        (subtractPktCtrs s.fwConsumed.mgmtPktCtr s.host.mgmtPktCtr - 1)).Sound ↔
          ¬subtractPktCtrs s.fwConsumed.mgmtPktCtr s.host.mgmtPktCtr ≤ 0 := by
      rw [assign_sound_iff, and_iff_right sound.asserted]
      omega
    simp only [holds.1, holds.2, forall_const]
    split
    · rw [← bound]
      constructor
      · intro clamped
        exact assign_asserted_iff.1 clamped.asserted
      · intro past
        refine ⟨past.asserted, ?_⟩
        dsimp only
        split <;> omega
    · exact bound
  · rw [if_neg holds]
    rw [Bool.and_eq_true, compareGlobalTimestampsGte_iff_toNat] at holds
    exact iff_of_true sound fun valid after => absurd ⟨valid, after⟩ holds

theorem boundConsumed_asserted_iff (sound : pending.Sound) :
    (boundConsumed inTs s pending).asserted = true ↔ (boundConsumed inTs s pending).Sound := by
  refine ⟨fun held => ?_, Sound.asserted⟩
  unfold boundConsumed at held ⊢
  split
  · next holds =>
      rw [if_pos holds] at held
      dsimp only at held ⊢
      split
      · next clamps =>
          rw [if_pos clamps] at held
          refine ⟨held, ?_⟩
          dsimp only
          split <;> omega
      · next plain =>
          rw [if_neg plain] at held
          exact assign_asserted_iff.1 held
  · exact sound

theorem boundForwarded_sound_iff :
    (boundForwarded inTs s pending).Sound ↔
      pending.Sound ∧ Past inTs s.host s.fwForwarded := by
  unfold boundForwarded Past
  by_cases holds : (s.fwForwarded.valid && compareGlobalTimestampsGte
      s.fwForwarded.globalTimestamp inTs) = true
  · rw [if_pos holds]
    rw [Bool.and_eq_true, compareGlobalTimestampsGte_iff_toNat] at holds
    simp only [holds.1, holds.2, forall_const]
    rw [assign_sound_iff, Bool.and_eq_true, decide_eq_true_eq]
    constructor
    · rintro ⟨⟨asserted, ahead⟩, least⟩
      exact ⟨⟨asserted, by omega⟩, by omega⟩
    · rintro ⟨sound, past⟩
      have nonneg := sound.nonneg
      exact ⟨⟨sound.asserted, by omega⟩, by omega⟩
  · rw [if_neg holds]
    rw [Bool.and_eq_true, compareGlobalTimestampsGte_iff_toNat] at holds
    exact ⟨fun sound => ⟨sound, fun valid after => absurd ⟨valid, after⟩ holds⟩, And.left⟩

theorem boundForwarded_asserted_iff (checked : pending.asserted = true ↔ pending.Sound) :
    (boundForwarded inTs s pending).asserted = true ↔
      (boundForwarded inTs s pending).Sound := by
  unfold boundForwarded
  split
  · exact assign_asserted_iff
  · exact checked

theorem ofSnapshots_sound_iff (later : s.macHw.ctrGte s.host = true)
    (unseen : s.macHw.mgmtPktCtr ≠ s.host.mgmtPktCtr) :
    (ofSnapshots inTs s).Sound ↔
      ((s.macHw.globalTimestamp - inTs).toNat ≤ 0x80000000 →
        Past inTs s.host s.fwConsumed ∧ Past inTs s.host s.fwForwarded) := by
  have nonneg := subtractPktCtrs_nonneg_iff.2 later
  have nonzero := mt subtractPktCtrs_eq_zero_iff.1 unseen
  have first : (assign { frames := 0, asserted := true }
      (subtractPktCtrs s.macHw.mgmtPktCtr s.host.mgmtPktCtr)).Sound :=
    assign_sound_iff.2 ⟨rfl, nonneg⟩
  unfold ofSnapshots
  by_cases after : compareGlobalTimestampsGte s.macHw.globalTimestamp inTs = true
  · have fewer : (assign (assign { frames := 0, asserted := true }
        (subtractPktCtrs s.macHw.mgmtPktCtr s.host.mgmtPktCtr))
        (subtractPktCtrs s.macHw.mgmtPktCtr s.host.mgmtPktCtr - 1)).Sound :=
      assign_sound_iff.2 ⟨first.asserted, by omega⟩
    rw [if_pos (by simp [assign, nonzero, after]), boundForwarded_sound_iff]
    rw [compareGlobalTimestampsGte_iff_toNat] at after
    rw [forall_prop_of_true after]
    exact and_congr_left' (boundConsumed_sound_iff fewer)
  · rw [if_neg (by simp [after])]
    rw [compareGlobalTimestampsGte_iff_toNat] at after
    exact iff_of_true first fun not => absurd not after

theorem ofSnapshots_asserted_iff (later : s.macHw.ctrGte s.host = true)
    (unseen : s.macHw.mgmtPktCtr ≠ s.host.mgmtPktCtr) :
    (ofSnapshots inTs s).asserted = true ↔ (ofSnapshots inTs s).Sound := by
  have nonneg := subtractPktCtrs_nonneg_iff.2 later
  have nonzero := mt subtractPktCtrs_eq_zero_iff.1 unseen
  unfold ofSnapshots
  dsimp only
  split
  · apply boundForwarded_asserted_iff
    apply boundConsumed_asserted_iff
    refine assign_sound_iff.2 ⟨?_, ?_⟩
    · exact (assign_sound_iff.2 ⟨rfl, nonneg⟩).asserted
    · change 0 ≤ subtractPktCtrs s.macHw.mgmtPktCtr s.host.mgmtPktCtr - 1
      omega
  · exact assign_asserted_iff

end Pending

theorem pendingOnLink_asserted_iff
    (later : s.macHw.valid = true → s.host.valid = true → s.macHw.ctrGte s.host = true) :
    (pendingOnLink inTs s).asserted = true ↔
      ¬s.Behind inTs s.fwConsumed ∧ ¬s.Behind inTs s.fwForwarded := by
  unfold pendingOnLink
  dsimp only
  split_ifs with noMac noHost seen after
  · have invalid : ¬s.macHw.valid = true := by simpa using noMac
    exact iff_of_true rfl
      ⟨fun behind => invalid behind.macValid, fun behind => invalid behind.macValid⟩
  · have invalid : ¬s.host.valid = true := by simpa using noHost
    exact iff_of_true rfl
      ⟨fun behind => invalid behind.hostValid, fun behind => invalid behind.hostValid⟩
  · have same := subtractPktCtrs_eq_zero_iff.1 seen
    exact iff_of_true rfl
      ⟨fun behind => behind.unseen same, fun behind => behind.unseen same⟩
  · rw [compareGlobalTimestampsGte_iff_toNat] at after
    exact iff_of_true rfl
      ⟨fun behind => behind.hostBefore after, fun behind => behind.hostBefore after⟩
  · simp only [Bool.not_eq_true', Bool.not_eq_false] at noMac noHost
    have unseen := mt subtractPktCtrs_eq_zero_iff.2 seen
    have greater := later noMac noHost
    have each : ∀ fw : SnapshotParams, ¬s.Behind inTs fw ↔
        ((s.macHw.globalTimestamp - inTs).toNat ≤ 0x80000000 →
          Pending.Past inTs s.host fw) := by
      intro fw
      unfold Pending.Past
      rw [compareGlobalTimestampsGte_iff_toNat] at after
      constructor
      · intro ahead mac valid not past
        exact ahead ⟨noMac, noHost, unseen, after, mac, valid, not,
          subtractPktCtrs_nonpos_iff.1 past⟩
      · intro past behind
        exact past behind.macAfter behind.fwValid behind.fwAfter
          (subtractPktCtrs_nonpos_iff.2 behind.notPast)
    rw [Pending.assign_asserted_iff, Pending.assign_sound_iff,
      Pending.ofSnapshots_asserted_iff greater unseen, each, each, ← imp_and,
      ← Pending.ofSnapshots_sound_iff greater unseen]
    exact ⟨And.left, fun sound => ⟨sound, sound.nonneg⟩⟩

/-- Timestamps half of the range apart: of the host and the firmware, with nothing past the
firmware's, or of the firmware and the frame, with nothing past the frame's. -/
def HalfTurn (inTs macHw host fw : Timestamp) : Prop :=
  macHw = fw ∧ host = fw + 0x80000000 ∧ fw ≠ inTs ∧ (fw - inTs).toNat < 0x80000000 ∨
    macHw = inTs ∧ fw = inTs + 0x80000000 ∧ ¬(host - inTs).toNat ≤ 0x80000000

instance (inTs macHw host fw : Timestamp) : Decidable (HalfTurn inTs macHw host fw) :=
  inferInstanceAs (Decidable (_ ∨ _))

theorem eq_add_half_iff {ts1 ts2 : Timestamp} :
    ts1 = ts2 + 0x80000000 ↔ ts1.toNat = (ts2.toNat + 0x80000000) % 0x100000000 := by
  have half : (0x80000000 : Timestamp).toNat = 0x80000000 := rfl
  rw [← BitVec.toNat_inj, BitVec.toNat_add, half]

theorem sub_toNat_eq (ts1 ts2 : Timestamp) :
    (ts1 - ts2).toNat = (0x100000000 - ts2.toNat + ts1.toNat) % 0x100000000 :=
  BitVec.toNat_sub ts1 ts2

theorem halfTurn_iff {inTs macHw host fw : Timestamp} :
    HalfTurn inTs macHw host fw ↔
      (macHw - inTs).toNat ≤ 0x80000000 ∧ ¬(host - inTs).toNat ≤ 0x80000000 ∧
        (fw - inTs).toNat ≤ 0x80000000 ∧ (macHw - host).toNat ≤ 0x80000000 ∧
        (macHw - fw).toNat ≤ 0x80000000 ∧ (host - fw).toNat ≤ 0x80000000 := by
  unfold HalfTurn
  rw [eq_add_half_iff, eq_add_half_iff, ne_eq, ← BitVec.toNat_inj, ← BitVec.toNat_inj,
    ← BitVec.toNat_inj, sub_toNat_eq, sub_toNat_eq, sub_toNat_eq, sub_toNat_eq, sub_toNat_eq,
    sub_toNat_eq]
  have one : inTs.toNat < 0x100000000 := inTs.isLt
  have two : macHw.toNat < 0x100000000 := macHw.isLt
  have three : host.toNat < 0x100000000 := host.isLt
  have four : fw.toNat < 0x100000000 := fw.isLt
  omega

namespace Snapshots

structure TurnedBack (inTs : Timestamp) (s : Snapshots) (fw : SnapshotParams) : Prop where
  macValid : s.macHw.valid = true
  hostValid : s.host.valid = true
  fwValid : fw.valid = true
  unseen : s.macHw.mgmtPktCtr ≠ s.host.mgmtPktCtr
  macPastHost : s.macHw.ctrGte s.host = true
  macPastFw : s.macHw.ctrGte fw = true
  notPast : (s.host.mgmtPktCtr - fw.mgmtPktCtr).toNat < 0x8000
  halfTurn : HalfTurn inTs s.macHw.globalTimestamp s.host.globalTimestamp fw.globalTimestamp

@[simp] theorem hostAfter_mgmtPktCtr : (hostAfter macHw host).mgmtPktCtr = host.mgmtPktCtr := by
  unfold hostAfter
  split_ifs <;> rfl

@[simp] theorem hostAfter_globalTimestamp :
    (hostAfter macHw host).globalTimestamp = host.globalTimestamp := by
  unfold hostAfter
  split_ifs <;> rfl

theorem hostAfter_valid_iff : (hostAfter macHw host).valid = true ↔
    host.valid = true ∧ macHw.tsGte host = true ∧ macHw.ctrGte host = true := by
  unfold hostAfter
  split_ifs with valid behind
  · simp only [SnapshotParams.invalidate, Bool.false_eq_true, false_iff]
    rintro ⟨-, ts, ctr⟩
    simp [ts, ctr] at behind
  · simpa [valid] using behind
  · simp [valid]

@[simp] theorem fwAfter_mgmtPktCtr : (fwAfter macHw host fw).mgmtPktCtr = fw.mgmtPktCtr := by
  unfold fwAfter
  dsimp only
  split_ifs <;> rfl

@[simp] theorem fwAfter_globalTimestamp :
    (fwAfter macHw host fw).globalTimestamp = fw.globalTimestamp := by
  unfold fwAfter
  dsimp only
  split_ifs <;> rfl

theorem fwAfter_valid_iff : (fwAfter macHw host fw).valid = true ↔
    fw.valid = true ∧ macHw.tsGte fw = true ∧ macHw.ctrGte fw = true ∧
      (host.valid = true → host.tsGte fw = host.ctrGte fw) := by
  unfold fwAfter
  by_cases valid : fw.valid = true
  · rw [if_pos valid]
    by_cases behind : (!macHw.tsGte fw || !macHw.ctrGte fw) = true
    · have invalid : (fw.invalidate).valid = false := rfl
      simp only [if_pos behind, invalid, Bool.and_false, Bool.false_and, Bool.false_eq_true,
        if_false, false_iff]
      rintro ⟨-, ts, ctr, -⟩
      simp [ts, ctr] at behind
    · simp only [if_neg behind, valid, Bool.and_true]
      simp only [Bool.or_eq_true, Bool.not_eq_true', not_or, Bool.not_eq_false] at behind
      rw [behind.1, behind.2]
      cases host.valid <;> cases host.tsGte fw <;> cases host.ctrGte fw <;>
        simp [SnapshotParams.invalidate, valid]
  · rw [if_neg valid]
    exact iff_of_false valid fun kept => valid kept.1

theorem behind_iff (macValid : s.macHw.valid = true) :
    s.invalidateStale.Behind inTs (fwAfter s.macHw (hostAfter s.macHw s.host) fw) ↔
      s.TurnedBack inTs fw := by
  have stale : s.invalidateStale =
      { macHw := s.macHw
        fwForwarded := fwAfter s.macHw (hostAfter s.macHw s.host) s.fwForwarded
        fwConsumed := fwAfter s.macHw (hostAfter s.macHw s.host) s.fwConsumed
        host := hostAfter s.macHw s.host } := by
    unfold invalidateStale
    rw [macValid]
    rfl
  have alike : (hostAfter s.macHw s.host).tsGte fw = s.host.tsGte fw ∧
      (hostAfter s.macHw s.host).ctrGte fw = s.host.ctrGte fw := by
    unfold SnapshotParams.tsGte SnapshotParams.ctrGte
    exact ⟨by rw [hostAfter_globalTimestamp], by rw [hostAfter_mgmtPktCtr]⟩
  constructor
  · intro behind
    rw [stale] at behind
    have hostKept := hostAfter_valid_iff.1 behind.hostValid
    have fwKept := fwAfter_valid_iff.1 behind.fwValid
    have compared := fwKept.2.2.2 behind.hostValid
    have notPast := behind.notPast
    have fwAfter := behind.fwAfter
    have hostBefore := behind.hostBefore
    have unseen := behind.unseen
    simp only [hostAfter_mgmtPktCtr, hostAfter_globalTimestamp, fwAfter_mgmtPktCtr,
      fwAfter_globalTimestamp] at notPast fwAfter hostBefore unseen
    rw [alike.1, alike.2] at compared
    have ctr : s.host.ctrGte fw = true := comparePktCtrsGte_iff.2 (by omega)
    rw [ctr] at compared
    refine ⟨macValid, hostKept.1, fwKept.1, unseen, hostKept.2.2, fwKept.2.2.1, notPast, ?_⟩
    exact halfTurn_iff.2 ⟨behind.macAfter, hostBefore, fwAfter,
      compareGlobalTimestampsGte_iff_toNat.1 hostKept.2.1,
      compareGlobalTimestampsGte_iff_toNat.1 fwKept.2.1, compareGlobalTimestampsGte_iff_toNat.1 compared⟩
  · intro turned
    obtain ⟨macAfter, hostBefore, notBefore, macHost, macFw, hostFw⟩ :=
      halfTurn_iff.1 turned.halfTurn
    have hostKept : (hostAfter s.macHw s.host).valid = true :=
      hostAfter_valid_iff.2 ⟨turned.hostValid, compareGlobalTimestampsGte_iff_toNat.2 macHost,
        turned.macPastHost⟩
    have fwKept : (fwAfter s.macHw (hostAfter s.macHw s.host) fw).valid = true := by
      refine fwAfter_valid_iff.2 ⟨turned.fwValid, compareGlobalTimestampsGte_iff_toNat.2 macFw,
        turned.macPastFw, fun _ => ?_⟩
      have ctr : s.host.ctrGte fw = true :=
        comparePktCtrsGte_iff.2 (Nat.le_of_lt turned.notPast)
      have ts : s.host.tsGte fw = true := compareGlobalTimestampsGte_iff_toNat.2 hostFw
      rw [alike.1, alike.2, ctr, ts]
    rw [stale]
    refine ⟨macValid, hostKept, ?_, ?_, macAfter, fwKept, ?_, ?_⟩
    · simpa using turned.unseen
    · simpa using hostBefore
    · simpa using notBefore
    · simpa using turned.notPast

end Snapshots

def LinkView.passes (host : SnapshotParams) : LinkView → Bool
  | .invalid | .absent => true
  | .noContext | .unreadable => false
  | .shared macHw fwForwarded fwConsumed =>
    (Snapshots.invalidateStale
      { macHw := macHw, fwForwarded := fwForwarded, fwConsumed := fwConsumed,
        host := host }).checkSanity

def LinkView.Turned (inTs : Timestamp) (host : SnapshotParams) : LinkView → Prop
  | .shared macHw fwForwarded fwConsumed =>
    let s : Snapshots :=
      { macHw := macHw, fwForwarded := fwForwarded, fwConsumed := fwConsumed, host := host }
    s.TurnedBack inTs fwConsumed ∨ s.TurnedBack inTs fwForwarded
  | _ => False

def Reached (inLink : Link) (view : Link → LinkView) (hosts : Link → SnapshotParams)
    (link : Link) : Prop :=
  view inLink ≠ .invalid ∧ view inLink ≠ .noContext ∧
    ∀ earlier ≤ link, (view earlier).passes (hosts earlier) = true

theorem invalidateStale_asserted_iff :
    (pendingOnLink inTs s.invalidateStale).asserted = true ↔
      ¬s.TurnedBack inTs s.fwConsumed ∧ ¬s.TurnedBack inTs s.fwForwarded := by
  by_cases macValid : s.macHw.valid = true
  · have stale : s.invalidateStale.macHw = s.macHw ∧
        s.invalidateStale.host = Snapshots.hostAfter s.macHw s.host ∧
        s.invalidateStale.fwConsumed =
          Snapshots.fwAfter s.macHw (Snapshots.hostAfter s.macHw s.host) s.fwConsumed ∧
        s.invalidateStale.fwForwarded =
          Snapshots.fwAfter s.macHw (Snapshots.hostAfter s.macHw s.host) s.fwForwarded := by
      unfold Snapshots.invalidateStale
      rw [macValid]
      exact ⟨rfl, rfl, rfl, rfl⟩
    rw [pendingOnLink_asserted_iff, stale.2.2.1, stale.2.2.2, Snapshots.behind_iff macValid,
      Snapshots.behind_iff macValid]
    intro _ hostValid
    rw [stale.2.1, Snapshots.hostAfter_valid_iff] at hostValid
    rw [stale.1, stale.2.1]
    unfold SnapshotParams.ctrGte
    rw [Snapshots.hostAfter_mgmtPktCtr]
    exact hostValid.2.2
  · have same : s.invalidateStale = s := by
      unfold Snapshots.invalidateStale
      rw [if_pos (by simpa using macValid)]
    rw [same]
    unfold pendingOnLink
    rw [if_pos (by simpa using macValid)]
    exact iff_of_true rfl
      ⟨fun turned => macValid turned.macValid, fun turned => macValid turned.macValid⟩

namespace Counting

variable {inLink : Link} {view : Link → LinkView} {counting : Counting} {pending : Pending}

theorem links_asserted_iff {hosts : Link → SnapshotParams} (list : List Link)
    (rising : list.Pairwise (· < ·)) (same : ∀ link ∈ list, counting.hosts link = hosts link) :
    (links inTs inLink view list counting).asserted = true ↔
      counting.asserted = true ∧ ∀ link ∈ list, link ≠ inLink →
        (∀ earlier ∈ list, earlier ≤ link → (view earlier).passes (hosts earlier) = true) →
          ¬(view link).Turned inTs (hosts link) := by
  induction list generalizing counting with
  | nil => simp [links]
  | cons first rest ih =>
    rw [List.pairwise_cons] at rising
    have here := same first List.mem_cons_self
    have later : ∀ link ∈ rest, counting.hosts link = hosts link :=
      fun link mem => same link (List.mem_cons_of_mem _ mem)
    have stops : (view first).passes (hosts first) = false →
        ∀ link ∈ first :: rest, link ≠ inLink →
          (∀ earlier ∈ first :: rest, earlier ≤ link →
            (view earlier).passes (hosts earlier) = true) →
          ¬(view link).Turned inTs (hosts link) := by
      intro fails link mem _ passed
      have least : first ≤ link := by
        rcases List.mem_cons.1 mem with rfl | mem
        · exact le_refl _
        · exact (rising.1 link mem).le
      rw [passed first List.mem_cons_self least] at fails
      exact absurd fails (by decide)
    have goesOn : (view first).passes (hosts first) = true →
        ((∀ link ∈ first :: rest, link ≠ inLink →
          (∀ earlier ∈ first :: rest, earlier ≤ link →
            (view earlier).passes (hosts earlier) = true) →
          ¬(view link).Turned inTs (hosts link)) ↔
        (first ≠ inLink → ¬(view first).Turned inTs (hosts first)) ∧
          ∀ link ∈ rest, link ≠ inLink →
            (∀ earlier ∈ rest, earlier ≤ link →
              (view earlier).passes (hosts earlier) = true) →
            ¬(view link).Turned inTs (hosts link)) := by
      intro passed
      constructor
      · intro all
        refine ⟨fun other => all first List.mem_cons_self other ?_, ?_⟩
        · intro earlier mem least
          rcases List.mem_cons.1 mem with rfl | mem
          · exact passed
          · exact absurd least (rising.1 earlier mem).not_ge
        · intro link mem other before
          refine all link (List.mem_cons_of_mem _ mem) other ?_
          intro earlier there least
          rcases List.mem_cons.1 there with rfl | there
          · exact passed
          · exact before earlier there least
      · rintro ⟨head, tail⟩ link mem other before
        rcases List.mem_cons.1 mem with rfl | mem
        · exact head other
        · exact tail link mem other fun earlier there least =>
            before earlier (List.mem_cons_of_mem _ there) least
    have skips : (view first).passes (hosts first) = true →
        ¬(view first).Turned inTs (hosts first) →
        ((links inTs inLink view rest
            (counting.add first { frames := 0, asserted := true })).asserted = true ↔
          counting.asserted = true ∧ ∀ link ∈ first :: rest, link ≠ inLink →
            (∀ earlier ∈ first :: rest, earlier ≤ link →
              (view earlier).passes (hosts earlier) = true) →
            ¬(view link).Turned inTs (hosts link)) := by
      intro passed clean
      have added := @ih (counting.add first { frames := 0, asserted := true }) rising.2 later
      rw [added, goesOn passed]
      simp [add, clean]
    cases seen : view first with
    | invalid =>
      rw [seen] at skips
      simpa only [links, seen] using skips rfl id
    | absent =>
      rw [seen] at skips
      simpa only [links, seen] using skips rfl id
    | noContext =>
      rw [seen] at stops
      simp only [links, seen]
      exact (and_iff_left (stops rfl)).symm
    | unreadable =>
      rw [seen] at stops
      simp only [links, seen]
      exact (and_iff_left (stops rfl)).symm
    | shared macHw fwForwarded fwConsumed =>
      rw [seen] at stops goesOn
      simp only [links, seen, here]
      split
      · next insane =>
          exact (and_iff_left (stops (by simpa [LinkView.passes] using insane))).symm
      · next sane =>
          have passed : (LinkView.shared macHw fwForwarded fwConsumed).passes (hosts first) =
              true := by simpa [LinkView.passes] using sane
          have untouched : ∀ host, ∀ link ∈ rest,
              Function.update counting.hosts first host link = hosts link := by
            intro host link mem
            rw [Function.update_of_ne (rising.1 link mem).ne']
            exact later link mem
          split
          · next own =>
              rw [ih rising.2 (untouched _), goesOn passed]
              simp [add, own]
          · next other =>
              rw [ih rising.2 (untouched _), goesOn passed]
              simp only [add, Bool.and_eq_true, invalidateStale_asserted_iff, ← not_or]
              rw [and_assoc]
              refine and_congr_right' (and_congr_left' ?_)
              exact ⟨fun clean _ => clean, fun clean => clean other⟩

end Counting

/-- The assertions hold exactly if no other link that the loop comes to has timestamps which
the comparison takes both ways. -/
theorem calculateWaitCount_asserted_iff (inTs : Timestamp) (inLink : Link)
    (view : Link → LinkView) (hosts : Link → SnapshotParams) :
    (calculateWaitCount inTs inLink view hosts).asserted = true ↔
      ∀ link, link ≠ inLink → Reached inLink view hosts link →
        ¬(view link).Turned inTs (hosts link) := by
  unfold calculateWaitCount Reached
  split
  · next seen => simp [seen]
  · next seen => simp [seen]
  · next valid context =>
      have all := @Counting.links_asserted_iff inTs inLink view
        { hosts := hosts, waitCount := .zero, asserted := true, status := .success } hosts
        (List.finRange maxMloLinks) (List.pairwise_lt_finRange _) (fun _ _ => rfl)
      rw [all]
      simp only [List.mem_finRange, forall_const, true_and]
      constructor
      · intro clean link other reached
        exact clean link other reached.2.2
      · intro clean link other passed
        exact clean link other ⟨valid, context, passed⟩

attribute [local instance] maxMloLinks_neZero in
/-- The links of a frame from the first of two: the host's snapshot of the other one is half of
the range from those of its hardware and firmware. -/
def halfTurnView (link : Link) : LinkView :=
  if link = 0 then .shared ⟨true, 9, 0xF0000000⟩ ⟨true, 9, 0xF0000000⟩ ⟨false, 0, 0⟩
  else if link = 1 then .shared ⟨true, 5, 0x10⟩ ⟨true, 4, 0x90000000⟩ ⟨true, 2, 0x10⟩
  else .invalid

attribute [local instance] maxMloLinks_neZero in
def halfTurnHosts (link : Link) : SnapshotParams :=
  if link = 0 then ⟨true, 9, 0xF0000000⟩
  else if link = 1 then ⟨true, 3, 0x80000010⟩
  else ⟨false, 0, 0⟩

/-- All snapshots are sane, and an assertion fails. -/
theorem calculateWaitCount_half_turn :
    (∀ link, Reached 0 halfTurnView halfTurnHosts link) ∧
      (calculateWaitCount 0xF0000000 0 halfTurnView halfTurnHosts).asserted = false := by
  have passes : ∀ earlier, (halfTurnView earlier).passes (halfTurnHosts earlier) = true := by
    decide
  exact ⟨fun _ => ⟨by decide, by decide, fun earlier _ => passes earlier⟩, by decide⟩

end VendorModules.Reo
