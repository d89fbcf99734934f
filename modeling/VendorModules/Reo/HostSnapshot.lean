import VendorModules.Reo.Snapshots

namespace VendorModules.Reo

open Lib

/-- `enum mgmt_rx_reo_ingress_drop_reason` -/
inductive DropReason
  | invalidReoParams
  | outOfOrderPktCtr
  | duplicatePktCtr
  | snapshotSanityFailure
  deriving DecidableEq, Repr

structure IngressConfig where
  /-- `WLAN_MGMT_RX_REO_ERROR_HANDLING` -/
  errorHandling : Bool
  pktCtrDeltaThresh : BitVec 16
  deriving DecidableEq, Repr

/-- A frame event as it comes to `wlan_mgmt_rx_reo_algo_entry`, with what the loop over the
links finds when it computes the wait counts. -/
structure Ingress where
  type : FrameType
  isMgmt : Bool
  valid : Bool
  rxParams : ReoParams
  reoRequired : Bool
  view : Link → LinkView

namespace Ingress

def link (frame : Ingress) : Link := frame.rxParams.linkId

def pktCtr (frame : Ingress) : PktCtr := frame.rxParams.mgmtPktCtr

/-- The host snapshot that `update_host_ss` stores. -/
def snapshot (frame : Ingress) : SnapshotParams where
  valid := true
  mgmtPktCtr := frame.rxParams.mgmtPktCtr
  globalTimestamp := frame.rxParams.globalTimestamp

end Ingress

/-- `handle_out_of_order_pkt_ctr`; there is no result when it fails, which is all it does in a
build without error handling. -/
def handleOutOfOrderPktCtr (cfg : IngressConfig) (host : SnapshotParams) (ctr : PktCtr) :
    Option DropReason :=
  if cfg.errorHandling then
    some (if ctr = host.mgmtPktCtr then .duplicatePktCtr else .outOfOrderPktCtr)
  else none

/-- The parameters are valid, and in a build without error handling a frame for the host has
a duration. -/
def checkFrameSanity (cfg : IngressConfig) (frame : Ingress) : Bool :=
  frame.valid && (cfg.errorHandling ||
    !(frame.type = .hostConsumedFrame && frame.rxParams.durationUs = 0))

structure Stored where
  host : SnapshotParams
  pktCtrDelta : Int
  dropReason : Option DropReason
  deriving DecidableEq, Repr

/-- The end of `wlan_mgmt_rx_reo_update_host_snapshot`, from where the difference of the
counters is taken. -/
def storeHostSnapshot (cfg : IngressConfig) (host : SnapshotParams) (frame : Ingress)
    (dropReason : Option DropReason) : Option Stored :=
  let pktCtrDelta := subtractPktCtrs frame.pktCtr host.mgmtPktCtr
  if pktCtrDelta ≠ 1 && cfg.pktCtrDeltaThresh ≠ 0 &&
      pktCtrDelta > (cfg.pktCtrDeltaThresh.toNat : Int) then none
  else some { host := frame.snapshot, pktCtrDelta := pktCtrDelta, dropReason := dropReason }

/-- `wlan_mgmt_rx_reo_update_host_snapshot`; there is no result when it fails, and then the
host snapshot is as it was. -/
def updateHostSnapshot (cfg : IngressConfig) (host : SnapshotParams) (frame : Ingress) :
    Option Stored :=
  if !frame.valid then none
  else if !host.valid then
    some { host := frame.snapshot, pktCtrDelta := 1, dropReason := none }
  else if comparePktCtrsGte host.mgmtPktCtr frame.pktCtr then
    -- A frame that is out of order goes on from here when its handler succeeds.
    (handleOutOfOrderPktCtr cfg host frame.pktCtr).bind fun reason =>
      storeHostSnapshot cfg host frame (some reason)
  else storeHostSnapshot cfg host frame none

/-- What `wlan_mgmt_rx_reo_algo_entry` comes to before the frame lists are updated. -/
inductive Outcome
  /-- An error is reported before the host snapshot is written. -/
  | refused
  /-- The frame is dropped once the host snapshot is written. -/
  | dropped (reason : DropReason)
  /-- The host snapshot is that of the frame; it goes on to the lists when the wait counts
  could be computed. -/
  | accepted (desc : FrameDescriptor) (status : CountStatus)
  deriving DecidableEq

structure Entered where
  hosts : Link → SnapshotParams
  outcome : Outcome

/-- `wlan_mgmt_rx_reo_algo_entry`, up to the update of the frame lists. -/
def algoEntry (cfg : IngressConfig) (hosts : Link → SnapshotParams) (frame : Ingress) :
    Entered :=
  if !frame.isMgmt || !checkFrameSanity cfg frame then { hosts := hosts, outcome := .refused }
  else
    match updateHostSnapshot cfg (hosts frame.link) frame with
    | none => { hosts := hosts, outcome := .refused }
    | some stored =>
      let hosts := Function.update hosts frame.link stored.host
      match stored.dropReason with
      | some reason => { hosts := hosts, outcome := .dropped reason }
      | none =>
        let counting :=
          calculateWaitCount frame.rxParams.globalTimestamp frame.link frame.view hosts
        { hosts := counting.hosts
          outcome := .accepted
            { type := frame.type
              rxParams := frame.rxParams
              reoRequired := frame.reoRequired
              waitCount := counting.waitCount
              pktCtrDelta := stored.pktCtrDelta }
            counting.status }

structure Reception where
  hosts : Link → SnapshotParams
  lastAccepted : Link → Option PktCtr

namespace Reception

def initial : Reception where
  hosts := fun _ => { valid := false, mgmtPktCtr := 0, globalTimestamp := 0 }
  lastAccepted := fun _ => none

def receive (cfg : IngressConfig) (reception : Reception) (frame : Ingress) : Reception :=
  let entered := algoEntry cfg reception.hosts frame
  { hosts := entered.hosts
    lastAccepted := match entered.outcome with
      | .accepted _ _ => Function.update reception.lastAccepted frame.link (some frame.pktCtr)
      | _ => reception.lastAccepted }

def run (cfg : IngressConfig) (frames : List Ingress) : Reception :=
  frames.foldl (receive cfg) initial

end Reception

structure Overwrites (cfg : IngressConfig) (host : SnapshotParams) (frame : Ingress) : Prop where
  errorHandling : cfg.errorHandling = true
  isMgmt : frame.isMgmt = true
  paramsValid : frame.valid = true
  hostValid : host.valid = true
  notNewer : comparePktCtrsGte host.mgmtPktCtr frame.pktCtr = true
  changes : frame.snapshot ≠ host
  /-- Only the frame that is half of the range away can be past the threshold. -/
  within : ¬((frame.pktCtr - host.mgmtPktCtr).toNat = 0x8000 ∧ cfg.pktCtrDeltaThresh ≠ 0 ∧
    cfg.pktCtrDeltaThresh.toNat < 0x8000)

structure Forward (cfg : IngressConfig) (reception : Reception) (frame : Ingress) : Prop where
  /-- A frame that is not newer is dropped or reported as an error, and leaves the host
  snapshot as it was. -/
  stays : (reception.hosts frame.link).valid = true →
    comparePktCtrsGte (reception.hosts frame.link).mgmtPktCtr frame.pktCtr = true →
      (∀ desc status, (algoEntry cfg reception.hosts frame).outcome ≠ .accepted desc status) ∧
        (reception.receive cfg frame).hosts frame.link = reception.hosts frame.link
  /-- No host snapshot moves backwards. -/
  advances : ∀ link, (reception.hosts link).valid = true →
    (((reception.receive cfg frame).hosts link).mgmtPktCtr -
      (reception.hosts link).mgmtPktCtr).toNat < 0x8000
  /-- An accepted frame has its positive distance from the last one that was. -/
  delta : ∀ desc status,
    (algoEntry cfg reception.hosts frame).outcome = .accepted desc status →
      (reception.hosts frame.link).valid = true →
        ∃ last, reception.lastAccepted frame.link = some last ∧
          desc.pktCtrDelta = (frame.pktCtr - last).toNat ∧
          0 < (frame.pktCtr - last).toNat ∧ (frame.pktCtr - last).toNat < 0x8000

variable {cfg : IngressConfig} {hosts : Link → SnapshotParams} {host : SnapshotParams}
  {frame : Ingress} {reception : Reception}

/-! ### What one frame does -/

def SnapshotParams.Becomes (before after : SnapshotParams) : Prop :=
  after = before ∨ after = before.invalidate

namespace SnapshotParams.Becomes

variable {a b c : SnapshotParams}

theorem refl (a : SnapshotParams) : a.Becomes a := .inl rfl

theorem trans (first : a.Becomes b) (second : b.Becomes c) : a.Becomes c := by
  rcases first with rfl | rfl
  · exact second
  · rcases second with rfl | rfl
    · exact .inr rfl
    · exact .inr rfl

theorem mgmtPktCtr (becomes : a.Becomes b) : b.mgmtPktCtr = a.mgmtPktCtr := by
  rcases becomes with rfl | rfl <;> rfl

theorem eq_of_valid (becomes : a.Becomes b) (valid : b.valid = true) : b = a := by
  rcases becomes with rfl | rfl
  · rfl
  · exact absurd valid (by simp [invalidate])

end SnapshotParams.Becomes

theorem Snapshots.invalidateStale_host (s : Snapshots) :
    s.host.Becomes s.invalidateStale.host := by
  unfold invalidateStale
  split
  · exact .refl _
  · change s.host.Becomes (hostAfter s.macHw s.host)
    unfold hostAfter
    split_ifs
    · exact .inr rfl
    · exact .refl _
    · exact .refl _

theorem Counting.links_hosts {inTs : Timestamp} {inLink : Link} {view : Link → LinkView}
    (list : List Link) (counting : Counting) (link : Link) :
    (counting.hosts link).Becomes ((links inTs inLink view list counting).hosts link) := by
  induction list generalizing counting with
  | nil => exact .refl _
  | cons first rest ih =>
    unfold links
    split
    · exact ih (counting.add first _)
    · exact ih (counting.add first _)
    · exact .refl _
    · exact .refl _
    · next macHw fwForwarded fwConsumed _ =>
        have kept : ∀ host, (counting.hosts first).Becomes host →
            (counting.hosts link).Becomes (Function.update counting.hosts first host link) := by
          intro host becomes
          by_cases own : link = first
          · rw [own, Function.update_self]
            exact becomes
          · rw [Function.update_of_ne own]
            exact .refl _
        have stale := kept _ (Snapshots.invalidateStale_host
          { macHw := macHw, fwForwarded := fwForwarded, fwConsumed := fwConsumed,
            host := counting.hosts first })
        dsimp only
        split_ifs
        · exact stale
        · exact stale.trans (ih (Counting.add _ first _))
        · exact stale.trans (ih (Counting.add _ first _))

theorem calculateWaitCount_hosts {inTs : Timestamp} {inLink : Link} {view : Link → LinkView}
    (link : Link) :
    (hosts link).Becomes ((calculateWaitCount inTs inLink view hosts).hosts link) := by
  unfold calculateWaitCount
  split
  · exact .refl _
  · exact .refl _
  · exact Counting.links_hosts _ _ link

theorem storeHostSnapshot_eq_some_iff {dropReason : Option DropReason} {stored : Stored} :
    storeHostSnapshot cfg host frame dropReason = some stored ↔
      stored = { host := frame.snapshot
                 pktCtrDelta := subtractPktCtrs frame.pktCtr host.mgmtPktCtr
                 dropReason := dropReason } ∧
        ¬(subtractPktCtrs frame.pktCtr host.mgmtPktCtr ≠ 1 ∧ cfg.pktCtrDeltaThresh ≠ 0 ∧
          subtractPktCtrs frame.pktCtr host.mgmtPktCtr > (cfg.pktCtrDeltaThresh.toNat : Int)) := by
  unfold storeHostSnapshot
  dsimp only
  split
  · next past =>
      simp only [Bool.and_eq_true, decide_eq_true_eq, and_assoc] at past
      exact iff_of_false (by simp) fun stores => stores.2 past
  · next near =>
      simp only [Bool.and_eq_true, decide_eq_true_eq, and_assoc] at near
      rw [Option.some_inj, and_iff_left near]
      exact eq_comm

theorem subtractPktCtrs_gt_iff {ctr1 ctr2 : PktCtr} {thresh : BitVec 16}
    (notNewer : comparePktCtrsGte ctr2 ctr1 = true) :
    (subtractPktCtrs ctr1 ctr2 ≠ 1 ∧ thresh ≠ 0 ∧
        subtractPktCtrs ctr1 ctr2 > (thresh.toNat : Int)) ↔
      (ctr1 - ctr2).toNat = 0x8000 ∧ thresh ≠ 0 ∧ thresh.toNat < 0x8000 := by
  have apart := BitVec.toNat_sub ctr1 ctr2
  have back := BitVec.toNat_sub ctr2 ctr1
  have one := ctr1.isLt
  have two := ctr2.isLt
  rw [comparePktCtrsGte_iff] at notNewer
  unfold subtractPktCtrs
  dsimp only
  split
  · constructor
    · rintro ⟨-, -, past⟩
      omega
    · rintro ⟨half, -, -⟩
      omega
  · constructor
    · rintro ⟨-, nonzero, past⟩
      exact ⟨by omega, nonzero, by omega⟩
    · rintro ⟨half, nonzero, below⟩
      exact ⟨by omega, nonzero, by omega⟩

theorem updateHostSnapshot_eq_some {stored : Stored}
    (update : updateHostSnapshot cfg host frame = some stored) :
    stored.host = frame.snapshot ∧ frame.valid = true ∧
      (host.valid = true → stored.pktCtrDelta = subtractPktCtrs frame.pktCtr host.mgmtPktCtr) ∧
      (stored.dropReason = none → host.valid = true →
        comparePktCtrsGte host.mgmtPktCtr frame.pktCtr = false) ∧
      (stored.dropReason ≠ none → cfg.errorHandling = true ∧ host.valid = true ∧
        comparePktCtrsGte host.mgmtPktCtr frame.pktCtr = true ∧
        ¬((frame.pktCtr - host.mgmtPktCtr).toNat = 0x8000 ∧ cfg.pktCtrDeltaThresh ≠ 0 ∧
          cfg.pktCtrDeltaThresh.toNat < 0x8000)) := by
  unfold updateHostSnapshot at update
  split_ifs at update with invalid first notNewer
  · have fresh : host.valid = false := by simpa using first
    obtain rfl := Option.some_inj.1 update
    exact ⟨rfl, by simpa using invalid, by simp [fresh], by simp [fresh], by simp⟩
  · obtain ⟨reason, handled, stores⟩ := Option.bind_eq_some_iff.1 update
    have handling : cfg.errorHandling = true := by
      unfold handleOutOfOrderPktCtr at handled
      by_contra off
      rw [if_neg off] at handled
      cases handled
    obtain ⟨rfl, near⟩ := storeHostSnapshot_eq_some_iff.1 stores
    rw [subtractPktCtrs_gt_iff notNewer] at near
    refine ⟨rfl, by simpa using invalid, fun _ => rfl, by simp, fun _ => ?_⟩
    exact ⟨handling, by simpa using first, notNewer, near⟩
  · obtain ⟨rfl, near⟩ := storeHostSnapshot_eq_some_iff.1 update
    exact ⟨rfl, by simpa using invalid, fun _ => rfl,
      fun _ _ => Bool.eq_false_of_not_eq_true notNewer, by simp⟩

theorem algoEntry_cases (cfg : IngressConfig) (hosts : Link → SnapshotParams)
    (frame : Ingress) :
    (algoEntry cfg hosts frame = { hosts := hosts, outcome := .refused }) ∨
    (∃ reason stored, frame.isMgmt = true ∧
      updateHostSnapshot cfg (hosts frame.link) frame = some stored ∧
      stored.dropReason = some reason ∧
      algoEntry cfg hosts frame =
        { hosts := Function.update hosts frame.link stored.host, outcome := .dropped reason }) ∨
    (∃ desc status stored,
      updateHostSnapshot cfg (hosts frame.link) frame = some stored ∧
      stored.dropReason = none ∧ desc.pktCtrDelta = stored.pktCtrDelta ∧
      (algoEntry cfg hosts frame).outcome = .accepted desc status ∧
      ∀ link, (Function.update hosts frame.link stored.host link).Becomes
        ((algoEntry cfg hosts frame).hosts link)) := by
  unfold algoEntry
  split
  · exact .inl rfl
  · next sane =>
      have mgmt : frame.isMgmt = true := by
        by_contra other
        exact sane (by simp [other])
      split
      · exact .inl rfl
      · next stored update =>
          right
          dsimp only
          split
          · next reason drops => exact .inl ⟨reason, stored, mgmt, update, drops, rfl⟩
          · next keeps =>
              exact .inr ⟨_, _, stored, update, keeps, rfl, rfl,
                fun link => calculateWaitCount_hosts link⟩

theorem newer_toNat {ctr1 ctr2 : PktCtr} (newer : comparePktCtrsGte ctr1 ctr2 = false) :
    0 < (ctr2 - ctr1).toNat ∧ (ctr2 - ctr1).toNat < 0x8000 ∧
      subtractPktCtrs ctr2 ctr1 = (ctr2 - ctr1).toNat := by
  have apart := BitVec.toNat_sub ctr1 ctr2
  have back := BitVec.toNat_sub ctr2 ctr1
  have one := ctr1.isLt
  have two := ctr2.isLt
  have past : ¬(ctr1 - ctr2).toNat ≤ 0x8000 := of_decide_eq_false newer
  unfold subtractPktCtrs
  dsimp only
  split <;> omega

theorem sub_self_lt (ctr : PktCtr) : (ctr - ctr).toNat < 0x8000 := by
  simp

/-! ### Runs -/

def Reception.Tracked (reception : Reception) : Prop :=
  ∀ link, (reception.hosts link).valid = true →
    reception.lastAccepted link = some (reception.hosts link).mgmtPktCtr

theorem snapshot_eq_of_dropped {reason : DropReason} {stored : Stored}
    (mgmt : frame.isMgmt = true) (update : updateHostSnapshot cfg host frame = some stored)
    (drops : stored.dropReason = some reason) (clean : ¬Overwrites cfg host frame) :
    stored.host = host := by
  obtain ⟨same, valid, -, -, dropped⟩ := updateHostSnapshot_eq_some update
  obtain ⟨handling, hostValid, notNewer, near⟩ := dropped (by simp [drops])
  by_contra changed
  rw [same] at changed
  exact clean ⟨handling, mgmt, valid, hostValid, notNewer, changed, near⟩

theorem Reception.Tracked.receive (tracked : reception.Tracked)
    (clean : ¬Overwrites cfg (reception.hosts frame.link) frame) :
    (reception.receive cfg frame).Tracked := by
  obtain refused | ⟨reason, stored, mgmt, update, drops, entered⟩ |
    ⟨desc, status, stored, update, -, -, accepted, becomes⟩ :=
      algoEntry_cases cfg reception.hosts frame
  · unfold Reception.receive
    rw [refused]
    exact tracked
  · have same := snapshot_eq_of_dropped mgmt update drops clean
    unfold Reception.receive
    rw [entered, same, Function.update_eq_self]
    exact tracked
  · intro link valid
    have kept := (becomes link).eq_of_valid valid
    unfold Reception.receive at valid ⊢
    simp only [accepted, kept] at valid ⊢
    by_cases own : link = frame.link
    · subst own
      rw [Function.update_self, Function.update_self,
        (updateHostSnapshot_eq_some update).1]
      rfl
    · rw [Function.update_of_ne own] at valid ⊢
      rw [Function.update_of_ne own]
      exact tracked link valid

theorem Reception.Tracked.forward (tracked : reception.Tracked)
    (clean : ¬Overwrites cfg (reception.hosts frame.link) frame) :
    Forward cfg reception frame := by
  obtain refused | ⟨reason, stored, mgmt, update, drops, entered⟩ |
    ⟨desc, status, stored, update, keeps, delta, accepted, becomes⟩ :=
      algoEntry_cases cfg reception.hosts frame
  · have hosts : (reception.receive cfg frame).hosts = reception.hosts := by
      unfold Reception.receive
      rw [refused]
    refine ⟨fun _ _ => ⟨by simp [refused], by rw [hosts]⟩, fun link _ => ?_, ?_⟩
    · rw [hosts]
      exact sub_self_lt _
    · intro desc status accepted
      simp [refused] at accepted
  · have same := snapshot_eq_of_dropped mgmt update drops clean
    have hosts : (reception.receive cfg frame).hosts = reception.hosts := by
      unfold Reception.receive
      rw [entered, same, Function.update_eq_self]
    refine ⟨fun _ _ => ⟨by simp [entered], by rw [hosts]⟩, fun link _ => ?_, ?_⟩
    · rw [hosts]
      exact sub_self_lt _
    · intro desc status accepted
      simp [entered] at accepted
  · obtain ⟨same, -, difference, newer, -⟩ := updateHostSnapshot_eq_some update
    refine ⟨fun valid notNewer => ?_, fun link valid => ?_, ?_⟩
    · rw [newer keeps valid] at notNewer
      cases notNewer
    · change (((algoEntry cfg reception.hosts frame).hosts link).mgmtPktCtr - _).toNat < _
      rw [(becomes link).mgmtPktCtr]
      by_cases own : link = frame.link
      · subst own
        rw [Function.update_self, same]
        exact (newer_toNat (newer keeps valid)).2.1
      · rw [Function.update_of_ne own]
        exact sub_self_lt _
    · intro desc' status' also valid
      rw [accepted] at also
      obtain ⟨rfl, rfl⟩ : desc = desc' ∧ status = status' := by simpa using also
      have past := newer_toNat (newer keeps valid)
      refine ⟨_, tracked frame.link valid, ?_, past.1, past.2.1⟩
      rw [delta, difference valid, past.2.2]

theorem Reception.Tracked.forward_iff (tracked : reception.Tracked) :
    Forward cfg reception frame ↔ ¬Overwrites cfg (reception.hosts frame.link) frame := by
  refine ⟨fun forward overwrites => ?_, tracked.forward⟩
  have stays := (forward.stays overwrites.hostValid overwrites.notNewer).2
  have stored : updateHostSnapshot cfg (reception.hosts frame.link) frame =
      some { host := frame.snapshot
             pktCtrDelta :=
               subtractPktCtrs frame.pktCtr (reception.hosts frame.link).mgmtPktCtr
             dropReason := some (if frame.pktCtr = (reception.hosts frame.link).mgmtPktCtr then
               .duplicatePktCtr else .outOfOrderPktCtr) } := by
    unfold updateHostSnapshot handleOutOfOrderPktCtr
    rw [if_neg (by simp [overwrites.paramsValid]), if_neg (by simp [overwrites.hostValid]),
      if_pos overwrites.notNewer, if_pos overwrites.errorHandling, Option.bind_some,
      storeHostSnapshot_eq_some_iff, subtractPktCtrs_gt_iff overwrites.notNewer]
    exact ⟨rfl, overwrites.within⟩
  have sane : (!frame.isMgmt || !checkFrameSanity cfg frame) = false := by
    simp [checkFrameSanity, overwrites.isMgmt, overwrites.paramsValid,
      overwrites.errorHandling]
  apply overwrites.changes
  rw [← stays]
  unfold Reception.receive algoEntry
  rw [sane, stored]
  simp

namespace Reception

def NoneOverwrites (cfg : IngressConfig) : Reception → List Ingress → Prop
  | _, [] => True
  | reception, frame :: rest =>
    ¬Overwrites cfg (reception.hosts frame.link) frame ∧
      NoneOverwrites cfg (reception.receive cfg frame) rest

theorem noneOverwrites_append {before after : List Ingress} :
    NoneOverwrites cfg reception (before ++ after) ↔
      NoneOverwrites cfg reception before ∧
        NoneOverwrites cfg (before.foldl (receive cfg) reception) after := by
  induction before generalizing reception with
  | nil => simp [NoneOverwrites]
  | cons frame before ih =>
    rw [List.cons_append, NoneOverwrites, NoneOverwrites, ih, and_assoc]
    rfl

theorem tracked_initial : initial.Tracked := by
  intro link valid
  cases valid

theorem Tracked.foldl {frames : List Ingress} (tracked : reception.Tracked)
    (clean : NoneOverwrites cfg reception frames) :
    (frames.foldl (Reception.receive cfg) reception).Tracked := by
  induction frames generalizing reception with
  | nil => exact tracked
  | cons frame frames ih => exact ih (tracked.receive clean.1) clean.2

theorem lastAccepted_foldl {frames : List Ingress} {link : Link} {ctr : PktCtr}
    (last : (frames.foldl (receive cfg) reception).lastAccepted link = some ctr) :
    reception.lastAccepted link = some ctr ∨ ∃ frame ∈ frames, frame.pktCtr = ctr := by
  induction frames generalizing reception with
  | nil => exact .inl last
  | cons frame frames ih =>
    rcases ih last with earlier | ⟨later, mem, same⟩
    · cases entered : (algoEntry cfg reception.hosts frame).outcome with
      | accepted desc status =>
        simp only [receive, entered] at earlier
        by_cases own : link = frame.link
        · rw [own, Function.update_self, Option.some_inj] at earlier
          exact .inr ⟨frame, List.mem_cons_self, earlier⟩
        · rw [Function.update_of_ne own] at earlier
          exact .inl earlier
      | refused =>
        simp only [receive, entered] at earlier
        exact .inl earlier
      | dropped reason =>
        simp only [receive, entered] at earlier
        exact .inl earlier
    · exact .inr ⟨later, List.mem_cons_of_mem _ mem, same⟩

theorem mem_of_valid {frames : List Ingress} {link : Link}
    (clean : NoneOverwrites cfg initial frames)
    (valid : ((run cfg frames).hosts link).valid = true) :
    ∃ frame ∈ frames, frame.pktCtr = ((run cfg frames).hosts link).mgmtPktCtr := by
  have last := tracked_initial.foldl clean link valid
  rcases lastAccepted_foldl last with none | found
  · cases none
  · exact found

theorem run_advances {frames between : List Ingress} {link : Link} {base : PktCtr}
    (clean : NoneOverwrites cfg initial (frames ++ between))
    (window : ∀ frame ∈ frames ++ between, (frame.pktCtr - base).toNat ≤ 0x8000)
    (valid : ∀ reached, reached <+: between →
      ((run cfg (frames ++ reached)).hosts link).valid = true) :
    (((run cfg frames).hosts link).mgmtPktCtr - base).toNat ≤
      (((run cfg (frames ++ between)).hosts link).mgmtPktCtr - base).toNat := by
  induction between using List.reverseRecOn with
  | nil => rw [List.append_nil]
  | append_singleton between frame ih =>
    rw [← List.append_assoc] at clean window ⊢
    have parts := noneOverwrites_append.1 clean
    have earlier := ih parts.1 (fun frame mem => window frame (List.mem_append_left _ mem))
      fun reached is => valid reached (is.trans (List.prefix_append _ _))
    have now := valid between (List.prefix_append _ _)
    have next := valid (between ++ [frame]) (List.prefix_refl _)
    rw [← List.append_assoc] at next
    have tracked : (run cfg (frames ++ between)).Tracked := tracked_initial.foldl parts.1
    have forward := (tracked.forward parts.2.1).advances link now
    obtain ⟨one, oneMem, oneIs⟩ := mem_of_valid parts.1 now
    obtain ⟨two, twoMem, twoIs⟩ := mem_of_valid clean next
    have oneIn := window one (List.mem_append_left _ oneMem)
    have twoIn := window two twoMem
    have snoc : run cfg (frames ++ between ++ [frame]) =
        (run cfg (frames ++ between)).receive cfg frame := by
      unfold run
      rw [List.foldl_append, List.foldl_cons, List.foldl_nil]
    rw [oneIs] at oneIn
    rw [twoIs, snoc] at twoIn
    rw [snoc]
    refine earlier.trans ?_
    rw [Serial.sub_eq_sub_sub base, BitVec.toNat_sub] at forward
    omega

/-- In a run in which no frame overwrites a host snapshot, the host snapshots go forward with
every frame, and with frames of half of the range none falls behind where it was while it
stays valid. -/
theorem run_forward (cfg : IngressConfig) (frames : List Ingress)
    (clean : NoneOverwrites cfg initial frames) :
    (∀ before frame after, frames = before ++ frame :: after →
      Forward cfg (run cfg before) frame) ∧
    ∀ base : PktCtr, (∀ frame ∈ frames, (frame.pktCtr - base).toNat ≤ 0x8000) →
      ∀ before between after link, frames = before ++ between ++ after →
        (∀ reached, reached <+: between →
          ((run cfg (before ++ reached)).hosts link).valid = true) →
        comparePktCtrsGte ((run cfg (before ++ between)).hosts link).mgmtPktCtr
          ((run cfg before).hosts link).mgmtPktCtr = true := by
  constructor
  · intro before frame after split
    subst split
    have parts := noneOverwrites_append.1 clean
    have tracked : (run cfg before).Tracked := tracked_initial.foldl parts.1
    exact tracked.forward parts.2.1
  · intro base window before between after link split valid
    subst split
    have begun := (noneOverwrites_append.1 clean).1
    have inside : ∀ frame ∈ before ++ between, (frame.pktCtr - base).toNat ≤ 0x8000 :=
      fun frame mem => window frame (List.mem_append_left _ mem)
    have advances := run_advances begun inside valid
    obtain ⟨frame, mem, same⟩ := mem_of_valid begun (valid between (List.prefix_refl _))
    have last := inside frame mem
    rw [same] at last
    rw [comparePktCtrsGte_iff, Serial.sub_eq_sub_sub base, BitVec.toNat_sub]
    omega

attribute [local instance] maxMloLinks_neZero in
def sampleIngress (ctr : PktCtr) (ts : Timestamp) : Ingress where
  type := .hostConsumedFrame
  isMgmt := true
  valid := true
  rxParams := { linkId := 0, mgmtPktCtr := ctr, globalTimestamp := ts, durationUs := 2 }
  reoRequired := true
  view := fun link =>
    if link = 0 then .shared ⟨true, ctr, ts⟩ ⟨true, ctr, ts⟩ ⟨false, 0, 0⟩ else .invalid

def handlingConfig : IngressConfig where
  errorHandling := true
  pktCtrDeltaThresh := 0

theorem run_forward_ten_twelve :
    Forward handlingConfig (run handlingConfig [sampleIngress 10 100]) (sampleIngress 12 120) :=
  (run_forward handlingConfig [sampleIngress 10 100, sampleIngress 12 120]
    ⟨fun overwrites => absurd overwrites.hostValid (by decide),
      fun overwrites => absurd overwrites.notNewer (by decide), trivial⟩).1
    [sampleIngress 10 100] (sampleIngress 12 120) [] rfl

/-- With error handling the frame with the counter 5 is dropped, and yet the snapshot goes back
from 10 to 5: the next frame is accepted although 6 is not newer than 10. -/
theorem run_overwrites :
    ¬Forward handlingConfig (run handlingConfig [sampleIngress 10 100]) (sampleIngress 5 50) ∧
      ((run handlingConfig [sampleIngress 10 100]).hosts 0).mgmtPktCtr = 10 ∧
      (algoEntry handlingConfig (run handlingConfig [sampleIngress 10 100]).hosts
        (sampleIngress 5 50)).outcome = .dropped .outOfOrderPktCtr ∧
      ((run handlingConfig [sampleIngress 10 100, sampleIngress 5 50]).hosts 0).mgmtPktCtr = 5 ∧
      (run handlingConfig
        [sampleIngress 10 100, sampleIngress 5 50, sampleIngress 6 60]).lastAccepted 0 =
          some 6 := by
  refine ⟨fun forward => ?_, by decide⟩
  exact absurd (forward.stays (by decide) (by decide)).2 (by decide)

end Reception

end VendorModules.Reo
