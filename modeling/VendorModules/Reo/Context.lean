import VendorModules.Lib.Transition
import VendorModules.Reo.Lists

namespace VendorModules.Reo

open Lib

/-- What is configured: the sizes of the lists, the time an entry may wait, and the links
whose frames are delivered by their scheduler. -/
structure Config where
  maxIngress : Nat
  maxEgress : Nat
  listEntryTimeoutUs : Nat
  schedulerEnabled : Link → Bool

/-- A received frame as it comes to the algorithm: its parameters, what its wait counts
were found to be, and how far its counter is past the last one of its link. -/
structure Received where
  type : FrameType
  rxParams : ReoParams
  reoRequired : Bool
  framesPending : Link → Nat
  pktCtrDelta : Int

def Received.descriptor (received : Received) : FrameDescriptor where
  type := received.type
  rxParams := received.rxParams
  reoRequired := received.reoRequired
  waitCount := .ofPending received.framesPending
  pktCtrDelta := received.pktCtrDelta

/-- A frame between the two sections of `mgmt_rx_reo_update_lists`, with the lock of the
ingress list held. -/
structure Arriving where
  desc : FrameDescriptor
  new : Option ListEntry

/-- An entry taken off the egress list, how often the inactivity timer had fired by then,
and whether it goes to the upper layer. -/
structure Released where
  entry : ListEntry
  epoch : Nat
  deliver : Bool

/-- `struct mgmt_rx_reo_context`, with the frame that is in `mgmt_rx_reo_update_lists`, the
one that the holder of the release lock is about to send up, the frames sent up so far,
and whether every assertion held. -/
structure Context where
  ingress : List ListEntry
  egress : List ListEntry
  lastReleased : Option ReoParams
  arriving : Option Arriving
  sending : Option Released
  epoch : Nat
  sentUp : List Released
  asserted : Bool

inductive Move
  /-- The first section of `mgmt_rx_reo_update_lists`, on both lists; the list entry may
  not be allocated. -/
  | arrive (received : Received) (allocated : Bool)
  /-- The second section, on the ingress list. -/
  | arriveIngress (now : BitVec 64)
  | ageout (now : BitVec 64)
  | moveEntries
  /-- A round of `mgmt_rx_reo_release_egress_list_entries`, for the links of a bitmap. -/
  | release (linkBitmap : BitVec 32)
  /-- `mgmt_rx_reo_list_entry_send_up` -/
  | sendUp
  /-- `mgmt_rx_reo_egress_inactivity_timer_handler` -/
  | inactivity

namespace Context

def initial : Context where
  ingress := []
  egress := []
  lastReleased := none
  arriving := none
  sending := none
  epoch := 0
  sentUp := []
  asserted := true

/-- The first section of `mgmt_rx_reo_update_lists`. -/
def updateEgress (cfg : Config) (ctx : Context) (received : Received) (allocated : Bool) :
    Context :=
  let desc := received.descriptor
  if desc.forHost && !allocated then ctx
  else
    let new := if desc.forHost then some desc.prepareListEntry else none
    match updateEgressList cfg.maxEgress ctx.egress ctx.lastReleased desc new with
    | none => ctx
    | some updated =>
      { ctx with
        egress := updated.list
        asserted := ctx.asserted && updated.asserted
        arriving := if checkSanityList updated.list then
            some { desc := updated.desc, new := new }
          else none }

def updateIngress (ctx : Context) (arriving : Arriving) (now : BitVec 64) : Context :=
  let updated := updateIngressList now ctx.ingress arriving.desc arriving.new
  { ctx with
    ingress := updated.list
    asserted := ctx.asserted && updated.asserted
    arriving := none }

/-- `mgmt_rx_reo_defer_delivery` -/
def deferDelivery (cfg : Config) (entry : ListEntry) (linkBitmap : BitVec 32) : Bool :=
  cfg.schedulerEnabled entry.rxParams.linkId && !linkBitmap.getLsbD entry.rxParams.linkId

/-- A round of the loop of `mgmt_rx_reo_release_egress_list_entries`. -/
def releaseFirst (cfg : Config) (ctx : Context) (linkBitmap : BitVec 32) : Context :=
  match ctx.egress with
  | [] => ctx
  | first :: rest =>
    if !first.isReadyToSendUp then ctx
    else
      let defer := deferDelivery cfg first linkBitmap
      let overflow := first.status.egressListOverflow
      if defer && !overflow then ctx
      else
        let taken := { ctx with
          egress := rest
          sending := some
            { entry := first, epoch := ctx.epoch, deliver := !defer || !overflow } }
        if ctx.lastReleased.all fun last =>
            compareGlobalTimestampsGte first.globalTs last.globalTimestamp then
          { taken with lastReleased := some first.rxParams }
        else
          { taken with asserted := ctx.asserted && first.isParallelRx }

def step (cfg : Config) (ctx : Context) : Move → Option Context
  | .arrive received allocated =>
    if ctx.arriving.isSome then none else some (ctx.updateEgress cfg received allocated)
  | .arriveIngress now => ctx.arriving.map fun arriving => ctx.updateIngress arriving now
  | .ageout now =>
    if ctx.arriving.isSome then none
    else some { ctx with
      ingress := ageoutEntriesIngressList cfg.listEntryTimeoutUs now ctx.ingress }
  | .moveEntries =>
    if ctx.arriving.isSome then none
    else
      let moved := moveEntriesIngressToEgressList cfg.maxIngress cfg.maxEgress
        ctx.ingress ctx.egress
      some { ctx with ingress := moved.1, egress := moved.2 }
  | .release linkBitmap =>
    if ctx.sending.isSome then none else some (ctx.releaseFirst cfg linkBitmap)
  | .sendUp => ctx.sending.map fun released =>
    { ctx with
      sending := none
      sentUp := if released.deliver then ctx.sentUp ++ [released] else ctx.sentUp }
  | .inactivity => some { ctx with lastReleased := none, epoch := ctx.epoch + 1 }

end Context

/-- The frames of a run have their timestamps in the half of the range from `base`. -/
def Move.Within (base : Timestamp) : Move → Prop
  | .arrive received _ => Serial.Within base received.rxParams.globalTimestamp
  | _ => True

instance (base : Timestamp) : DecidablePred (Move.Within base)
  | .arrive received _ =>
    inferInstanceAs (Decidable (Serial.Within base received.rxParams.globalTimestamp))
  | .arriveIngress _ | .ageout _ | .moveEntries | .release _ | .sendUp | .inactivity =>
    inferInstanceAs (Decidable True)

def sampleFrame (link : Link) (ts : Timestamp) (waitLink : Link) (pending : Nat) : Received where
  type := .hostConsumedFrame
  rxParams := { linkId := link, mgmtPktCtr := 1, globalTimestamp := ts, durationUs := 2 }
  reoRequired := true
  framesPending := Function.update (fun _ => 0) waitLink pending
  pktCtrDelta := 1

attribute [local instance] maxMloLinks_neZero in
def crossedMoves : List Move :=
  [.arrive (sampleFrame 0 100 1 1) true, .arriveIngress 0, .moveEntries, .release 3,
    .arrive (sampleFrame 1 50 0 0) true, .arriveIngress 1]

def sampleConfig : Config where
  maxIngress := 4
  maxEgress := 4
  listEntryTimeoutUs := 1000
  schedulerEnabled := fun _ => false

end VendorModules.Reo
