import VendorModules.Reo.Entry

namespace VendorModules.Reo

open Lib

/-- `enum mgmt_rx_reo_frame_descriptor_type` -/
inductive FrameType
  | hostConsumedFrame
  | fwConsumedFrame
  | errorFrame
  deriving DecidableEq, Repr

/-- `enum mgmt_rx_reo_list_type` -/
inductive ListType
  | ingress
  | egress
  | invalid
  deriving DecidableEq, Repr

/-- `struct mgmt_rx_reo_frame_descriptor` -/
structure FrameDescriptor where
  type : FrameType
  rxParams : ReoParams
  reoRequired : Bool
  waitCount : WaitCount
  pktCtrDelta : Int
  isStale : Bool := false
  isParallelRx : Bool := false
  queuedList : ListType := .invalid
  deriving DecidableEq

namespace FrameDescriptor

def globalTs (desc : FrameDescriptor) : Timestamp := desc.rxParams.globalTimestamp

def forHost (desc : FrameDescriptor) : Bool :=
  desc.type = .hostConsumedFrame && desc.reoRequired

/-- `mgmt_rx_reo_prepare_list_entry` -/
def prepareListEntry (desc : FrameDescriptor) : ListEntry where
  rxParams := desc.rxParams
  waitCount := desc.waitCount
  status := { waitForFrameOnOtherLinks := desc.waitCount.totalCount ≠ 0 }

/-- `mgmt_rx_reo_is_stale_frame` -/
def isStaleFrame (desc : FrameDescriptor) (lastReleased : Option ReoParams) : FrameDescriptor :=
  match desc.reoRequired, lastReleased with
  | true, some last =>
    if compareGlobalTimestampsGte last.startTimestamp desc.rxParams.startTimestamp &&
        compareGlobalTimestampsGte desc.rxParams.endTimestamp last.endTimestamp then
      { desc with isStale := false, isParallelRx := true }
    else
      { desc with
        isStale := !compareGlobalTimestampsGte desc.rxParams.startTimestamp last.startTimestamp
        isParallelRx := false }
  | _, _ => { desc with isStale := false, isParallelRx := false }

end FrameDescriptor

/-- `mgmt_rx_reo_check_sanity_list` -/
def checkSanityList : List ListEntry → Bool
  | first :: second :: rest =>
    compareGlobalTimestampsGte second.globalTs first.globalTs &&
      checkSanityList (second :: rest)
  | _ => true

/-- `mgmt_rx_reo_handle_egress_overflow`, for a list of more than `max` entries. -/
def handleEgressOverflow (max : Nat) (list : List ListEntry) : List ListEntry :=
  (list.take (list.length - max)).map (fun entry =>
      { entry with status := { entry.status with egressListOverflow := true } }) ++
    list.drop (list.length - max)

/-- The entries of a list that a loop over it passes before it finds one that is newer
than the frame. -/
def notNewer (ts : Timestamp) (list : List ListEntry) : List ListEntry :=
  list.takeWhile fun cur => compareGlobalTimestampsGte ts cur.globalTs

def newer (ts : Timestamp) (list : List ListEntry) : List ListEntry :=
  list.dropWhile fun cur => compareGlobalTimestampsGte ts cur.globalTs

def ListEntry.beforeReady (new leastGreater : ListEntry) (isParallelRx : Bool) : ListEntry :=
  let new := new.updateWaitCount leastGreater.waitCount
  { new with
    isParallelRx := isParallelRx
    status := { new.status with olderThanReadyToDeliverFrames := true } }

def ListEntry.beforeWaiting (new : ListEntry) (leastGreater : Option ListEntry)
    (isParallelRx : Bool) (now : BitVec 64) : ListEntry :=
  let new := match leastGreater with
    | some leastGreater => new.updateWaitCount leastGreater.waitCount
    | none => new
  { new with ingressListInsertionTs := now, isParallelRx := isParallelRx }

structure Updated where
  list : List ListEntry
  desc : FrameDescriptor
  asserted : Bool

/-- `mgmt_rx_reo_update_egress_list`; there is no result when it fails. -/
def updateEgressList (max : Nat) (list : List ListEntry) (lastReleased : Option ReoParams)
    (desc : FrameDescriptor) (new : Option ListEntry) : Option Updated :=
  let desc := desc.isStaleFrame lastReleased
  if desc.isStale then
    some { list := list, desc := desc
           asserted := (notNewer desc.globalTs list).all (·.isParallelRx) }
  else
    match new, list.getLast? with
    | some new, some last =>
      if compareGlobalTimestampsGte desc.globalTs last.globalTs then
        some { list := list, desc := desc, asserted := true }
      else
        match newer desc.globalTs list with
        | leastGreater :: later =>
          let new := new.beforeReady leastGreater desc.isParallelRx
          let list := notNewer desc.globalTs list ++ new :: leastGreater :: later
          some {
            list := if max < list.length then handleEgressOverflow max list else list
            desc := { desc with waitCount := new.waitCount, queuedList := .egress }
            asserted := true }
        | [] => none
    | _, _ => some { list := list, desc := desc, asserted := true }

/-- `mgmt_rx_reo_update_ingress_list`, at the host's time `now`. -/
def updateIngressList (now : BitVec 64) (list : List ListEntry) (desc : FrameDescriptor)
    (new : Option ListEntry) : Updated :=
  let older := notNewer desc.globalTs list
  let later := newer desc.globalTs list
  let asserted := older.all fun cur => !desc.isStale || cur.isParallelRx
  let older := older.map (·.updateWaitCount desc.waitCount)
  let counted := later.map
    (·.countDown desc.rxParams.linkId (BitVec.ofInt 16 desc.pktCtrDelta))
  match new with
  | some new =>
    if !desc.isStale && desc.queuedList ≠ .egress then
      let new := new.beforeWaiting later.head? desc.isParallelRx now
      { list := older ++ new :: counted
        desc := { desc with waitCount := new.waitCount, queuedList := .ingress }
        asserted := asserted }
    else
      { list := older ++ counted, desc := desc, asserted := asserted }
  | none => { list := older ++ counted, desc := desc, asserted := asserted }

/-- The walk of `mgmt_rx_reo_move_entries_ingress_to_egress_list`, with so many entries to
be taken off for overflow: the entries that are ready, and the rest. -/
def splitReady : Nat → List ListEntry → List ListEntry × List ListEntry
  | _, [] => ([], [])
  | overflow, cur :: rest =>
    let cur := if 0 < overflow then
        { cur with status := { cur.status with ingressListOverflow := true } }
      else cur
    if cur.isReadyToSendUp then
      (cur :: (splitReady (overflow - 1) rest).1, (splitReady (overflow - 1) rest).2)
    else ([], cur :: rest)

/-- `mgmt_rx_reo_move_entries_ingress_to_egress_list`: the ingress list and the egress
list. -/
def moveEntriesIngressToEgressList (maxIngress maxEgress : Nat)
    (ingress egress : List ListEntry) : List ListEntry × List ListEntry :=
  match splitReady (ingress.length - maxIngress) ingress with
  | ([], rest) => (rest, egress)
  | (ready, rest) =>
    let egress := egress ++ ready
    (rest, if maxEgress < egress.length then handleEgressOverflow maxEgress egress else egress)

def ListEntry.timedOut (entry : ListEntry) (timeout : Nat) (now : BitVec 64) : Bool :=
  timeout ≤ (now - entry.ingressListInsertionTs).toNat

/-- `mgmt_rx_reo_ageout_entries_ingress_list`, at the host's time `now`: the entries that
timed out are marked, and so are those before the last of them. -/
def ageoutEntriesIngressList (timeout : Nat) (now : BitVec 64) :
    List ListEntry → List ListEntry
  | [] => []
  | cur :: rest =>
    let cur := if cur.timedOut timeout now then
        { cur with status := { cur.status with agedOut := true } }
      else cur
    (if rest.any (·.timedOut timeout now) then
      { cur with status := { cur.status with olderThanLatestAgedOutFrame := true } }
    else cur) :: ageoutEntriesIngressList timeout now rest

end VendorModules.Reo
