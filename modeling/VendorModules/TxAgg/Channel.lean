import VendorModules.Lib.Transition
import Mathlib.Data.BitVec
import Mathlib.Logic.Function.Basic

/-!
# Uplink aggregation

Senders copy their packets into one buffer, which goes to the modem as a whole: when it is full or
old, when a packet may not wait, or when a timer expires. The timer's callback only schedules the
work that takes the buffer. Everything is done under `agg_lock`, except that whoever sends the
buffer cancels the timer after the lock is dropped.
-/

namespace VendorModules.TxAgg

open Function

structure Packet where
  sender : Nat
  seq : Nat
  len : BitVec 32
  /-- `RMNET_LLM(skb->priority) || RMNET_APS_LLB(skb->priority)` -/
  priority : Bool := false
  deriving DecidableEq

structure AggSkb where
  packets : List Packet
  tailroom : Nat
  deriving DecidableEq

/-- What has been given to `send_agg_skb` at once. `behind` is no part of it: a packet that does
not wait has found these packets aggregated. -/
structure Transmission where
  packets : List Packet
  behind : List Packet := []
  deriving DecidableEq

/-- Where a sender is. The ends of `rmnet_map_tx_aggregate` and of `rmnet_map_tx_qmap_cmd` that
run without the lock have a phase of their own. -/
inductive Phase
  | idle
  | locking (pkt : Packet) (qmap : Bool)
  /-- `hrtimer_cancel`, then back to `new_packet`. -/
  | retrying (pkt : Packet)
  /-- `hrtimer_cancel`, then the packet itself is sent. -/
  | clearing (pkt : Packet) (behind : List Packet)
  | sending (pkt : Packet) (behind : List Packet)
  deriving DecidableEq

structure EgressAggParams where
  aggSize : Nat
  aggCount : Nat
  deriving DecidableEq

/-- What does not change: `RMNET_EGRESS_FORMAT_PRIORITY` in the data format, the two time limits
in nanoseconds, and what of an skb's memory is the kernel's own. -/
structure Port where
  priority : Bool
  aggTimeLimit : Int := 1000000
  aggBypassTime : Int := 10000000
  sharedInfo : Nat

structure State where
  params : EgressAggParams
  aggSizeOrder : Nat := 0
  aggSkb : Option AggSkb := none
  aggCount : Nat := 0
  /-- `agg_state` is `-EINPROGRESS`. -/
  inProgress : Bool := false
  aggTime : Int := 0
  aggLast : Int := 0
  timerArmed : Bool := false
  /-- The timer has expired, and its callback has not scheduled the work yet. -/
  timerFiring : Bool := false
  workQueued : Bool := false
  workRunning : Bool := false
  phase : Nat → Phase := fun _ => .idle
  sent : List Transmission := []
  /-- All packets handed in so far. -/
  handed : List Packet := []
  /-- `skb_put` has found no room for what it was to put. -/
  panicked : Bool := false

def pageSize : Nat := 4096

def getOrder (size : Nat) : Nat :=
  if size ≤ pageSize then 0 else if size ≤ 2 * pageSize then 1
  else if size ≤ 4 * pageSize then 2 else if size ≤ 8 * pageSize then 3 else 4

/-- `diff.tv_sec > 0 || diff.tv_nsec > limit`, of a normalized difference. -/
def late (diff limit : Int) : Bool := 0 < diff / 1000000000 || limit < diff % 1000000000

namespace Port

variable (port : Port)

def urgent (pkt : Packet) : Bool := port.priority && pkt.priority

/-- The tailroom of the skb that `rmnet_map_build_skb` builds. -/
def room (order : Nat) : Nat := pageSize * 2 ^ order - port.sharedInfo

end Port

namespace State

variable (s : State)

def aggregated : List Packet := (s.aggSkb.map (·.packets)).getD []

def out : List Packet := s.sent.flatMap (·.packets)

def goto (t : Nat) (phase : Phase) : State := { s with phase := update s.phase t phase }

def transmit (packets behind : List Packet) : State :=
  { s with sent := s.sent ++ [{ packets := packets, behind := behind }] }

/-- What `rmnet_map_send_agg_skb`, the qmap command and the flush work do under the lock with an
aggregate. -/
def takeAggSkb : State :=
  match s.aggSkb with
  | none => s
  | some agg =>
    { s.transmit agg.packets [] with aggSkb := none, aggCount := 0, aggTime := 0, inProgress := false }

def overtake (t : Nat) (pkt : Packet) : State :=
  s.takeAggSkb.goto t
    (if s.aggSkb.isSome then .clearing pkt s.aggregated else .sending pkt s.aggregated)

def schedule : State := if s.inProgress then s else { s with inProgress := true, timerArmed := true }

def bypasses (port : Port) (pkt : Packet) (now : Int) : Bool :=
  late (now - s.aggLast) port.aggBypassTime || (BitVec.ofNat 32 s.params.aggSize - pkt.len).toInt ≤ 0

def isFull (port : Port) (agg : AggSkb) (pkt : Packet) (now : Int) : Bool :=
  agg.tailroom < pkt.len.toNat || s.params.aggCount ≤ s.aggCount ||
    late (now - s.aggTime) port.aggTimeLimit

/-- From `new_packet` to where the lock is dropped. `agg_last` is taken `now` and `agg_time` a
little later; `built` tells whether there is memory for an skb. -/
def txAggregate (port : Port) (t : Nat) (pkt : Packet) (now stamp : Int) (built : Bool) : State :=
  if port.urgent pkt then { s with aggLast := now }.overtake t pkt
  else
    match s.aggSkb with
    | none =>
      if s.bypasses port pkt now then ({ s with aggLast := now }.transmit [pkt] []).goto t .idle
      else if built then
        if port.room s.aggSizeOrder < pkt.len.toNat then { s with aggLast := now, panicked := true }
        else
          { s with
            aggLast := now
            aggSkb := some
              { packets := [pkt], tailroom := port.room s.aggSizeOrder - pkt.len.toNat }
            aggCount := 1
            aggTime := stamp }.schedule.goto t .idle
      else
        ({ s with aggLast := now, aggCount := 0, aggTime := 0 }.transmit [pkt] []).goto t .idle
    | some agg =>
      if s.isFull port agg pkt now then
        { s with aggLast := now }.takeAggSkb.goto t (.retrying pkt)
      else
        { s with
          aggLast := now
          aggSkb := some
            { packets := agg.packets ++ [pkt], tailroom := agg.tailroom - pkt.len.toNat }
          aggCount := (s.aggCount + 1) % 256 }.schedule.goto t .idle

/-- `rmnet_map_flush_tx_packet_work` -/
def flushTxPacketWork : State :=
  let s : State := if s.inProgress then { s.takeAggSkb with inProgress := false } else s
  { s with workRunning := false }

/-- `rmnet_map_update_ul_agg_config`, in the arithmetic of a `u16`. -/
def updateUlAggConfig (port : Port) (size count : Nat) : State :=
  if size < pageSize then { s with params := { aggSize := size, aggCount := count } }
  else
    { s with
      params :=
        { aggSize := ((pageSize * 2 ^ getOrder size) % 65536 + 65536 - port.sharedInfo % 65536) % 65536
          aggCount := count }
      aggSizeOrder := getOrder size }

end State

inductive Move
  /-- A packet is handed in, or a qmap command that is to flush. -/
  | handIn (pkt : Packet) (qmap : Bool)
  /-- A sender's locked section. -/
  | locked (t : Nat) (now stamp : Int) (built : Bool)
  | cancel (t : Nat)
  | send (t : Nat)
  | expire
  | callback
  | workBegin
  | flushWork
  | updateConfig (size count : Nat)
  deriving DecidableEq

/-- A step of one of the parties. `hrtimer_cancel` waits for a callback that is running; the
work does not run twice at a time. -/
def step (port : Port) (s : State) (move : Move) : Option State :=
  if s.panicked then none
  else
    match move with
    | .handIn pkt qmap =>
      if s.phase pkt.sender = .idle then
        some ({ s with handed := s.handed ++ [pkt] }.goto pkt.sender (.locking pkt qmap))
      else none
    | .locked t now stamp built =>
      match s.phase t with
      | .locking pkt false => some (s.txAggregate port t pkt now stamp built)
      | .locking pkt true => some (s.overtake t pkt)
      | _ => none
    | .cancel t =>
      if s.timerFiring then none
      else
        match s.phase t with
        | .retrying pkt => some ({ s with timerArmed := false }.goto t (.locking pkt false))
        | .clearing pkt behind => some ({ s with timerArmed := false }.goto t (.sending pkt behind))
        | _ => none
    | .send t =>
      match s.phase t with
      | .sending pkt behind => some ((s.transmit [pkt] behind).goto t .idle)
      | _ => none
    | .expire =>
      if s.timerArmed ∧ ¬s.timerFiring then
        some { s with timerArmed := false, timerFiring := true }
      else none
    | .callback =>
      if s.timerFiring then some { s with timerFiring := false, workQueued := true } else none
    | .workBegin =>
      if s.workQueued ∧ ¬s.workRunning then
        some { s with workQueued := false, workRunning := true }
      else none
    | .flushWork => if s.workRunning then some s.flushTxPacketWork else none
    | .updateConfig size count => some (s.updateUlAggConfig port size count)

def Initial (s : State) : Prop := ∃ params order,
  s = { params := params, aggSizeOrder := order }

end VendorModules.TxAgg
