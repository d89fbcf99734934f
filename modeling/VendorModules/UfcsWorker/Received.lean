import VendorModules.UfcsWorker.Machine
import VendorModules.Lib.Transition
import Mathlib.Data.List.Nodup

/-!
# What becomes of the messages that are read

A message waits in one slot between the receive work and the event work. It gets through as long
as the slot is not written again, or cleared, before the event work has read it.
-/

namespace VendorModules.UfcsWorker

open Ufcs Lib

/-! ## The messages that the worker has -/

def eventLetter : Option Stage → List Letter
  | some (.eventReply letter _) | some (.eventReplying letter _) | some (.eventAlloc letter) =>
    [letter]
  | _ => []

def recvLetter : Option Stage → List Letter
  | some (.recvLock letter) | some (.recvRestart letter) | some (.recvStore letter) => [letter]
  | _ => []

def newLetter : Option Stage → List Letter
  | some (.recvHandle _ letter) => [letter]
  | _ => []

def getting : Option Stage → Bool
  | some .eventGet => true
  | _ => false

namespace State

def slot (s : State) : List Letter :=
  if .event ∈ s.queue ∨ getting s.running then s.recvMsg.toList else []

def inHand (s : State) : List Letter :=
  eventLetter s.running ++ s.slot ++ recvLetter s.running

end State

/-- A message with a bad CRC is freed; any other becomes the event for it, or is freed when there
is no memory for the event. -/
def Fate.Fits (msg : Msg) : Fate → Prop
  | .event type => msg.crcGood ≠ 0 ∧ type = processEvent msg
  | .freed .crc => msg.crcGood = 0
  | .freed .allocation => msg.crcGood ≠ 0

/-- Every message that was read and is not the sender's has come to one end, in the order of
reading, or the worker still has it. -/
structure State.Handled (s : State) : Prop where
  account : s.received = s.fates.map Prod.fst ++ s.inHand
  fits : ∀ outcome ∈ s.fates, outcome.2.Fits outcome.1.msg
  ordered : (s.received.map Letter.serial).Pairwise (· < ·)

/-- A message is not put into the slot while the one there waits for the event work, the slot is
not cleared meanwhile, and no acknowledgement that the sender does not take has a bad CRC. -/
def Receives (s : State) : Move → Prop
  | .eventReset => .event ∉ s.queue ∧ getting s.running = false
  | .work _ =>
    match s.running with
    | some (.recvStore _) => .event ∉ s.queue
    | some (.recvHandle _ letter) =>
      letter.msg.body.isAckNckMsg → letter.msg.crcGood = 0 → s.status = .waitAck
    | _ => True
  | _ => True

/-! ## The invariant -/

def Sound (config : WorkerConfig) (msg : Msg) : Prop :=
  msg.crcGood = 0 → config.checkCrc ∧ ¬msg.body.isAckNckMsg

def Stage.Checked (config : WorkerConfig) : Stage → Prop
  | .recvHandle _ letter => letter.msg.crcGood = 0 → config.checkCrc
  | .recvLock letter | .recvRestart letter | .recvStore letter => Sound config letter.msg
  | .eventReply letter nck | .eventReplying letter nck => nck = true ↔ letter.msg.crcGood = 0
  | .eventAlloc letter => letter.msg.crcGood ≠ 0
  | _ => True

structure State.Tracked (config : WorkerConfig) (s : State) : Prop where
  account : s.received = s.fates.map Prod.fst ++ s.inHand
  fits : ∀ outcome ∈ s.fates, outcome.2.Fits outcome.1.msg
  ordered : ((s.received ++ newLetter s.running).map Letter.serial).Pairwise (· < ·)
  fresh : ∀ letter ∈ s.received ++ newLetter s.running, letter.serial < s.serials
  nodup : s.queue.Nodup
  alone : getting s.running → .event ∉ s.queue
  stage : ∀ stage, s.running = some stage → stage.Checked config
  slot : ∀ letter ∈ s.slot, Sound config letter.msg

theorem unpackMsg_crcGood {config : Config} {buf : List U8} {msg : Msg}
    (unpacked : unpackMsg config buf = some msg) (bad : msg.crcGood = 0) :
    config.checkCrc := by
  unfold unpackMsg at unpacked
  split_ifs at unpacked
  dsimp only at unpacked
  split at unpacked
  · cases unpacked
  · cases unpacked
    dsimp only at bad
    split_ifs at bad with differs
    · exact differs.1
    · cases bad

namespace State

variable {config : WorkerConfig} {s s' : State}

theorem queueWork_nodup (nodup : s.queue.Nodup) (work : Work) : (s.queueWork work).queue.Nodup := by
  unfold queueWork
  split_ifs with queued
  · exact nodup
  · exact List.nodup_append.mpr ⟨nodup, List.nodup_singleton work, fun a member b other =>
      fun same => queued (List.mem_singleton.mp other ▸ same ▸ member)⟩

theorem mem_queueWork {work other : Work} :
    other ∈ (s.queueWork work).queue ↔ other ∈ s.queue ∨ other = work := by
  unfold queueWork
  split_ifs with queued
  · constructor
    · exact .inl
    · rintro (there | rfl)
      · exact there
      · exact queued
  · simp only [List.mem_append, List.mem_singleton]

structure SameLetters (s s' : State) : Prop where
  received : s'.received = s.received
  fates : s'.fates = s.fates
  serials : s'.serials = s.serials
  recvMsg : s'.recvMsg = s.recvMsg
  queue : s'.queue.Nodup
  event : .event ∈ s'.queue ↔ .event ∈ s.queue

theorem Tracked.goes (tracked : s.Tracked config) (same : s.SameLetters s')
    (event : eventLetter s'.running = eventLetter s.running)
    (recv : recvLetter s'.running = recvLetter s.running)
    (new : newLetter s'.running = newLetter s.running)
    (get : getting s'.running = getting s.running)
    (checked : ∀ stage, s'.running = some stage → stage.Checked config) : s'.Tracked config := by
  have slot : s'.slot = s.slot := by
    simp only [State.slot, same.event, get, same.recvMsg]
  constructor
  · rw [same.received, same.fates, inHand, event, recv, slot]
    exact tracked.account
  · rw [same.fates]
    exact tracked.fits
  · rw [same.received, new]
    exact tracked.ordered
  · rw [same.received, new, same.serials]
    exact tracked.fresh
  · exact same.queue
  · rw [get, same.event]
    exact tracked.alone
  · exact checked
  · rw [slot]
    exact tracked.slot

theorem Tracked.same (tracked : s.Tracked config) (same : s.SameLetters s')
    (running : s'.running = s.running) : s'.Tracked config := by
  apply tracked.goes same
  case checked => rw [running]; exact tracked.stage
  all_goals rw [running]

def isBare : Option Stage → Bool
  | none => true
  | some stage =>
    match stage with
    | .recvHandle .. | .recvLock _ | .recvRestart _ | .recvStore _ | .eventGet
    | .eventReply .. | .eventReplying .. | .eventAlloc _ => false
    | _ => true

theorem eventLetter_bare {running : Option Stage} (bare : isBare running) :
    eventLetter running = [] := by
  rcases running with _ | stage
  · rfl
  · cases stage <;> first | rfl | cases bare

theorem recvLetter_bare {running : Option Stage} (bare : isBare running) :
    recvLetter running = [] := by
  rcases running with _ | stage
  · rfl
  · cases stage <;> first | rfl | cases bare

theorem newLetter_bare {running : Option Stage} (bare : isBare running) :
    newLetter running = [] := by
  rcases running with _ | stage
  · rfl
  · cases stage <;> first | rfl | cases bare

theorem getting_bare {running : Option Stage} (bare : isBare running) :
    getting running = false := by
  rcases running with _ | stage
  · rfl
  · cases stage <;> first | rfl | cases bare

theorem checked_bare {stage : Stage} (bare : isBare (some stage)) : stage.Checked config := by
  cases stage <;> trivial

theorem Tracked.bare (tracked : s.Tracked config) (same : s.SameLetters s')
    (before : isBare s.running) (after : isBare s'.running) : s'.Tracked config := by
  apply tracked.goes same
  · rw [eventLetter_bare before, eventLetter_bare after]
  · rw [recvLetter_bare before, recvLetter_bare after]
  · rw [newLetter_bare before, newLetter_bare after]
  · rw [getting_bare before, getting_bare after]
  · intro stage here
    rw [here] at after
    exact checked_bare after

theorem SameLetters.queueWork (nodup : s.queue.Nodup) {work : Work} (other : work ≠ .event) :
    s.SameLetters (s.queueWork work) := by
  have event : .event ∈ (s.queueWork work).queue ↔ .event ∈ s.queue := by
    rw [mem_queueWork]
    simp only [or_iff_left_iff_imp]
    exact fun same => absurd same.symm other
  refine { received := ?_, fates := ?_, serials := ?_, recvMsg := ?_,
           queue := queueWork_nodup nodup work, event := event }
  all_goals
    unfold State.queueWork
    split_ifs <;> rfl

/-! ## The moves beside the worker -/

theorem Tracked.queued (tracked : s.Tracked config) {work : Work} (other : work ≠ .event) :
    (s.queueWork work).Tracked config :=
  tracked.same (.queueWork tracked.nodup other) (queueWork_running work)

theorem Tracked.setErrorFlag (tracked : s.Tracked config) (bits : ErrFlag) :
    (s.setErrorFlag bits).Tracked config := by
  unfold State.setErrorFlag
  split_ifs
  · exact tracked.same ⟨rfl, rfl, rfl, rfl, tracked.nodup, .rfl⟩ rfl
  · exact tracked

theorem Tracked.eventReset (tracked : s.Tracked config) (idle : .event ∉ s.queue)
    (away : getting s.running = false) : s.eventReset.Tracked config := by
  have empty : s.slot = [] := by
    unfold State.slot
    rw [if_neg]
    simp [idle, away]
  have empty' : s.eventReset.slot = [] := by
    unfold State.slot
    split_ifs <;> rfl
  constructor
  · have account := tracked.account
    simp only [inHand, empty] at account
    simp only [inHand, empty']
    exact account
  · exact tracked.fits
  · exact tracked.ordered
  · exact tracked.fresh
  · exact tracked.nodup
  · exact tracked.alone
  · exact tracked.stage
  · rw [empty']
    simp

theorem Tracked.callerLocks (tracked : s.Tracked config) {thread : Nat} {msg : Msg}
    (locks : s.callerLocks thread msg = some s') : s'.Tracked config := by
  unfold State.callerLocks at locks
  split_ifs at locks
  cases locks
  exact tracked.same ⟨rfl, rfl, rfl, rfl, tracked.nodup, .rfl⟩ rfl

theorem Tracked.settled (tracked : s.Tracked config) {letter : Letter} {fate : Fate}
    (event : eventLetter s.running = [letter]) (recv : recvLetter s.running = [])
    (new : newLetter s.running = []) (away : getting s.running = false)
    (fits : fate.Fits letter.msg) : (s.settle letter fate).finish.Tracked config := by
  have slot : (s.settle letter fate).finish.slot = s.slot := by
    simp only [State.slot, away]
    rfl
  constructor
  · have account := tracked.account
    simp only [inHand, event, recv] at account
    simp only [inHand, slot]
    simpa [settle, finish, eventLetter, recvLetter] using account
  · intro outcome member
    rcases List.mem_append.mp member with earlier | last
    · exact tracked.fits outcome earlier
    · cases List.mem_singleton.mp last
      exact fits
  · have ordered := tracked.ordered
    rw [new] at ordered
    exact ordered
  · have fresh := tracked.fresh
    rw [new] at fresh
    exact fresh
  · exact tracked.nodup
  · intro get
    cases get
  · intro stage here
    cases here
  · rw [slot]
    exact tracked.slot

theorem Tracked.replied (tracked : s.Tracked config) {letter : Letter} {nck : Bool}
    (here : s.running = some (.eventReply letter nck) ∨
      s.running = some (.eventReplying letter nck)) : (s.replied letter nck).Tracked config := by
  have checked : nck = true ↔ letter.msg.crcGood = 0 := by
    rcases here with here | here
    · exact tracked.stage _ here
    · exact tracked.stage _ here
  have event : eventLetter s.running = [letter] := by
    rcases here with here | here <;> rw [here] <;> rfl
  have recv : recvLetter s.running = [] := by
    rcases here with here | here <;> rw [here] <;> rfl
  have new : newLetter s.running = [] := by
    rcases here with here | here <;> rw [here] <;> rfl
  have away : getting s.running = false := by
    rcases here with here | here <;> rw [here] <;> rfl
  unfold State.replied
  split_ifs with isNck
  · exact tracked.settled event recv new away (checked.mp isNck)
  · have same : s.SameLetters (s.goTo (.eventAlloc letter)) :=
      ⟨rfl, rfl, rfl, rfl, tracked.nodup, .rfl⟩
    apply tracked.goes same
    · exact event.symm
    · exact recv.symm
    · exact new.symm
    · exact away.symm
    · intro stage there
      cases there
      exact fun bad => isNck (checked.mpr bad)

theorem Tracked.release (tracked : s.Tracked config) (turn : Turn) :
    (s.release turn).Tracked config := by
  have freed : ({ s with lock := .free } : State).Tracked config :=
    tracked.same ⟨rfl, rfl, rfl, rfl, tracked.nodup, .rfl⟩ rfl
  unfold State.release
  dsimp only
  split
  · rename_i running
    exact freed.replied (.inr running)
  · exact freed

theorem Tracked.sendMsg (tracked : s.Tracked config) {turn : Turn}
    (sends : s.sendMsg turn = some s') : s'.Tracked config := by
  unfold State.sendMsg at sends
  split at sends
  · cases sends
    exact tracked.same ⟨rfl, rfl, rfl, rfl, tracked.nodup, .rfl⟩ rfl
  · cases sends
    have queued : (s.queueWork .send).Tracked config := tracked.queued (by simp)
    exact queued.same ⟨rfl, rfl, rfl, rfl, queued.nodup, .rfl⟩ rfl
  · split_ifs at sends
    cases sends
    exact tracked.same ⟨rfl, rfl, rfl, rfl, tracked.nodup, .rfl⟩ rfl
  · split_ifs at sends
    cases sends
    have kept : Work.event ∈ s.queue.erase .send ↔ .event ∈ s.queue :=
      List.mem_erase_of_ne (by simp)
    refine tracked.same ⟨rfl, rfl, rfl, rfl, tracked.nodup.erase _, kept⟩ rfl
  · cases sends
    exact tracked.same ⟨rfl, rfl, rfl, rfl, tracked.nodup, .rfl⟩ rfl
  · cases sends
    exact tracked.same ⟨rfl, rfl, rfl, rfl, tracked.nodup, .rfl⟩ rfl
  · cases sends
    apply Tracked.release
    exact tracked.same ⟨rfl, rfl, rfl, rfl, tracked.nodup, .rfl⟩ rfl

theorem Tracked.timers (tracked : s.Tracked config)
    (fires : s.ackReceiveTimeout = some s' ∨ s.ackReceiveQueue = some s' ∨
      s.msgTransDelayTimeout = some s' ∨ s.msgTransDelayGo = some s') : s'.Tracked config := by
  rcases fires with fires | fires | fires | fires
  · unfold State.ackReceiveTimeout at fires
    split_ifs at fires
    cases fires
    exact tracked.same ⟨rfl, rfl, rfl, rfl, tracked.nodup, .rfl⟩ rfl
  · unfold State.ackReceiveQueue at fires
    split_ifs at fires
    cases fires
    apply Tracked.queued _ (by simp)
    exact tracked.same ⟨rfl, rfl, rfl, rfl, tracked.nodup, .rfl⟩ rfl
  · unfold State.msgTransDelayTimeout at fires
    split_ifs at fires
    all_goals
      cases fires
      exact tracked.same ⟨rfl, rfl, rfl, rfl, tracked.nodup, .rfl⟩ rfl
  · unfold State.msgTransDelayGo at fires
    split at fires
    · cases fires
    · cases fires
      exact tracked.same ⟨rfl, rfl, rfl, rfl, tracked.nodup, .rfl⟩ rfl
    · have idle : ({ s with delayTimer := { s.delayTimer with firing := none } } : State).Tracked
          config := tracked.same ⟨rfl, rfl, rfl, rfl, tracked.nodup, .rfl⟩ rfl
      dsimp only at fires
      split_ifs at fires
      · cases fires
        exact idle.queued (by simp)
      · cases fires
        exact idle

/-! ## The works -/

theorem isBare_next (ready : Bool) (flag : Flag) :
    isBare (some (if ready then .recvRead flag else .recvDone)) := by
  cases ready <;> rfl

theorem Tracked.recvCheck (tracked : s.Tracked config) {flag : Flag} {handshake : Bool}
    (here : s.running = some (.recvCheck flag))
    (goes : s.recvCheck flag handshake = some s') : s'.Tracked config := by
  have before : isBare s.running := by rw [here]; rfl
  unfold State.recvCheck at goes
  split_ifs at goes
  · cases goes
    exact tracked.bare ⟨rfl, rfl, rfl, rfl, tracked.nodup, .rfl⟩ before rfl
  · cases goes
    exact tracked.bare ⟨rfl, rfl, rfl, rfl, tracked.nodup, .rfl⟩ before rfl
  · obtain ⟨t, stops, rfl⟩ := Option.map_eq_some_iff.mp goes
    obtain ⟨-, rfl⟩ := stopAckReceiveTimer_eq stops
    exact tracked.bare ⟨rfl, rfl, rfl, rfl, tracked.nodup, .rfl⟩ before rfl
  · cases goes
    exact tracked.bare ⟨rfl, rfl, rfl, rfl, tracked.nodup, .rfl⟩ before rfl
  · cases goes
    exact tracked.bare ⟨rfl, rfl, rfl, rfl, tracked.nodup, .rfl⟩ before rfl
  · cases goes
    exact tracked.bare ⟨rfl, rfl, rfl, rfl, tracked.nodup, .rfl⟩ before rfl

theorem Tracked.recvLooked (tracked : s.Tracked config) {flag : Flag} {waitAck : Bool}
    (here : s.running = some (.recvLooked flag waitAck))
    (goes : s.recvLooked flag waitAck = some s') : s'.Tracked config := by
  have before : isBare s.running := by rw [here]; rfl
  unfold State.recvLooked at goes
  dsimp only at goes
  obtain ⟨next, chosen, after⟩ : ∃ next, (if flag.has recvErrDataReady then Stage.recvRead flag
      else .recvDone) = next ∧ isBare (some next) := ⟨_, rfl, isBare_next _ flag⟩
  rw [chosen] at goes
  split_ifs at goes
  · obtain ⟨t, stops, rfl⟩ := Option.map_eq_some_iff.mp goes
    obtain ⟨-, rfl⟩ := stopAckReceiveTimer_eq stops
    exact tracked.bare ⟨rfl, rfl, rfl, rfl, tracked.nodup, .rfl⟩ before after
  · cases goes
    exact tracked.bare ⟨rfl, rfl, rfl, rfl, tracked.nodup, .rfl⟩ before rfl
  · cases goes
    exact tracked.bare ⟨rfl, rfl, rfl, rfl, tracked.nodup, .rfl⟩ before rfl
  · obtain ⟨t, stops, rfl⟩ := Option.map_eq_some_iff.mp goes
    obtain ⟨-, rfl⟩ := stopAckReceiveTimer_eq stops
    exact tracked.bare ⟨rfl, rfl, rfl, rfl, tracked.nodup, .rfl⟩ before after
  · cases goes
    exact tracked.bare ⟨rfl, rfl, rfl, rfl, tracked.nodup, .rfl⟩ before after

theorem Tracked.recvRead (tracked : s.Tracked config) {flag : Flag} (buf : Option (List U8))
    (allocated : Bool) (here : s.running = some (.recvRead flag)) :
    (s.recvRead config.toConfig flag buf allocated).Tracked config := by
  have before : isBare s.running := by rw [here]; rfl
  unfold State.recvRead
  split
  · exact tracked.bare ⟨rfl, rfl, rfl, rfl, tracked.nodup, .rfl⟩ before rfl
  · rename_i msg unpacked
    have read : ∃ bytes, unpackMsg config.toConfig bytes = some msg := by
      split_ifs at unpacked
      obtain ⟨bytes, -, unpacked⟩ := Option.bind_eq_some_iff.mp unpacked
      exact ⟨bytes, unpacked⟩
    obtain ⟨bytes, read⟩ := read
    have old : ∀ letter ∈ s.received, letter.serial < s.serials := fun letter member =>
      tracked.fresh letter (List.mem_append_left _ member)
    have slot : (({ s with serials := s.serials + 1 } : State).goTo
        (.recvHandle flag ⟨s.serials, msg⟩)).slot = s.slot := by
      simp only [State.slot, here]
      rfl
    constructor
    · have account := tracked.account
      simp only [inHand, here] at account
      simp only [inHand, slot]
      exact account
    · exact tracked.fits
    · have ordered := tracked.ordered
      rw [newLetter_bare before, List.append_nil] at ordered
      simp only [goTo, newLetter, List.map_append, List.map_cons, List.map_nil]
      refine List.pairwise_append.mpr ⟨ordered, List.pairwise_singleton _ _, ?_⟩
      intro serial member last same
      obtain ⟨letter, there, rfl⟩ := List.mem_map.mp member
      cases List.mem_singleton.mp same
      exact old letter there
    · intro letter member
      rcases List.mem_append.mp member with earlier | last
      · exact Nat.lt_succ_of_lt (old letter earlier)
      · cases List.mem_singleton.mp last
        exact Nat.lt_succ_self _
    · exact tracked.nodup
    · intro get
      cases get
    · intro stage there
      cases there
      exact unpackMsg_crcGood read
    · rw [slot]
      exact tracked.slot

theorem Tracked.keeps (tracked : s.Tracked config) {flag : Flag} {letter : Letter} {stage : Stage}
    (here : s.running = some (.recvHandle flag letter)) (same : s.SameLetters s')
    (kept : recvLetter (some stage) = [letter] ∧ eventLetter (some stage) = [] ∧
      newLetter (some stage) = [] ∧ getting (some stage) = false)
    (checked : stage.Checked config) :
    ({ s' with received := s'.received ++ [letter] }.goTo stage).Tracked config := by
  obtain ⟨recv, event, new, away⟩ := kept
  have slot : ({ s' with received := s'.received ++ [letter] }.goTo stage).slot = s.slot := by
    simp only [State.slot, goTo, same.event, same.recvMsg, here, away]
    rfl
  constructor
  · have account := tracked.account
    simp only [inHand, here] at account
    simp only [inHand, slot]
    simp only [goTo, recv, event, same.received, same.fates, account]
    simp [eventLetter, recvLetter]
  · simp only [goTo, same.fates]
    exact tracked.fits
  · have ordered := tracked.ordered
    rw [here] at ordered
    simp only [goTo, new, same.received, List.append_nil]
    exact ordered
  · have fresh := tracked.fresh
    rw [here] at fresh
    simp only [goTo, new, same.received, same.serials, List.append_nil]
    exact fresh
  · exact same.queue
  · intro get
    rw [goTo, away] at get
    cases get
  · intro stage' there
    cases there
    exact checked
  · rw [slot]
    exact tracked.slot

theorem Tracked.takes (tracked : s.Tracked config) {flag : Flag} {letter : Letter}
    (here : s.running = some (.recvHandle flag letter)) (same : s.SameLetters s')
    (after : s'.running = some .recvDone) : s'.Tracked config := by
  have slot : s'.slot = s.slot := by
    simp only [State.slot, same.event, same.recvMsg, here, after]
    rfl
  constructor
  · have account := tracked.account
    simp only [inHand, here] at account
    simp only [inHand, slot, after, same.received, same.fates]
    exact account
  · rw [same.fates]
    exact tracked.fits
  · have ordered := tracked.ordered
    rw [List.map_append] at ordered
    rw [after, same.received]
    simpa only [newLetter, List.append_nil] using (List.pairwise_append.mp ordered).1
  · intro letter member
    rw [after, same.received] at member
    rw [same.serials]
    exact tracked.fresh letter (List.mem_append_left _ (by simpa [newLetter] using member))
  · exact same.queue
  · rw [after]
    intro get
    cases get
  · intro stage there
    rw [after] at there
    cases there
    trivial
  · rw [slot]
    exact tracked.slot

theorem Tracked.recvAckNckMsg (tracked : s.Tracked config) {flag : Flag} {letter : Letter}
    (here : s.running = some (.recvHandle flag letter))
    (careful : letter.msg.crcGood = 0 → s.status = .waitAck)
    (goes : s.recvAckNckMsg flag letter = some s') : s'.Tracked config := by
  unfold State.recvAckNckMsg at goes
  obtain ⟨t, stops, rfl⟩ := Option.map_eq_some_iff.mp goes
  obtain ⟨-, rfl⟩ := stopAckReceiveTimer_eq stops
  dsimp only
  obtain ⟨t, chosen, same, running, status⟩ : ∃ t : State,
      (if isAckMsg letter.msg.body then
        ({ s with ackTimer := { s.ackTimer with armed := false } } : State).answer flag.stamp
      else { s with ackTimer := { s.ackTimer with armed := false } }) = t ∧
      s.SameLetters t ∧ t.running = s.running ∧ t.status = s.status := by
    refine ⟨_, rfl, ?_, ?_, ?_⟩
    · split_ifs <;> exact ⟨rfl, rfl, rfl, rfl, tracked.nodup, .rfl⟩
    · split_ifs <;> rfl
    · split_ifs <;> rfl
  rw [chosen]
  split_ifs with waits ack
  · exact tracked.takes here
      ⟨same.received, same.fates, same.serials, same.recvMsg, same.queue, same.event⟩ rfl
  · have queued : ({ t with status := .nck } : State).SameLetters
        (({ t with status := .nck } : State).queueWork .send) :=
      SameLetters.queueWork (s := { t with status := .nck }) same.queue (by simp)
    exact tracked.takes here
      ⟨queued.received.trans same.received, queued.fates.trans same.fates,
        queued.serials.trans same.serials, queued.recvMsg.trans same.recvMsg, queued.queue,
        queued.event.trans same.event⟩ rfl
  · apply tracked.keeps here same ⟨rfl, rfl, rfl, rfl⟩
    intro bad
    exact absurd (status.trans (careful bad)) waits

theorem Tracked.recvHandle {config : WorkerConfig} (tracked : s.Tracked config) {flag : Flag}
    {letter : Letter} (here : s.running = some (.recvHandle flag letter))
    (careful : letter.msg.body.isAckNckMsg → letter.msg.crcGood = 0 → s.status = .waitAck)
    (goes : s.recvHandle config flag letter = some s') : s'.Tracked config := by
  unfold State.recvHandle at goes
  by_cases ackNck : letter.msg.body.isAckNckMsg
  · rw [if_pos ackNck] at goes
    exact tracked.recvAckNckMsg here (careful ackNck) goes
  · rw [if_neg ackNck] at goes
    cases goes
    have sound : Sound config letter.msg := fun bad => ⟨tracked.stage _ here bad, ackNck⟩
    split_ifs
    · exact tracked.keeps here ⟨rfl, rfl, rfl, rfl, tracked.nodup, .rfl⟩
        ⟨rfl, rfl, rfl, rfl⟩ sound
    · exact tracked.keeps here ⟨rfl, rfl, rfl, rfl, tracked.nodup, .rfl⟩
        ⟨rfl, rfl, rfl, rfl⟩ sound

theorem Tracked.recvLock (tracked : s.Tracked config) {letter : Letter}
    (here : s.running = some (.recvLock letter)) (goes : s.recvLock letter = some s') :
    s'.Tracked config := by
  unfold State.recvLock at goes
  split_ifs at goes
  cases goes
  refine tracked.goes ⟨rfl, rfl, rfl, rfl, tracked.nodup, .rfl⟩ ?event ?recv ?new ?get ?checked
  case checked =>
    intro stage there
    cases there
    exact tracked.stage (.recvLock letter) here
  all_goals rw [here]; rfl

theorem Tracked.recvRestart (tracked : s.Tracked config) {letter : Letter}
    (here : s.running = some (.recvRestart letter)) (goes : s.recvRestart letter = some s') :
    s'.Tracked config := by
  unfold State.recvRestart at goes
  split_ifs at goes
  cases goes
  refine tracked.goes ⟨rfl, rfl, rfl, rfl, tracked.nodup, .rfl⟩ ?event ?recv ?new ?get ?checked
  case checked =>
    intro stage there
    cases there
    exact tracked.stage (.recvRestart letter) here
  all_goals rw [here]; rfl

theorem Tracked.recvStore (tracked : s.Tracked config) {letter : Letter}
    (here : s.running = some (.recvStore letter)) (idle : .event ∉ s.queue) :
    (s.recvStore letter).Tracked config := by
  have empty : s.slot = [] := by
    unfold State.slot
    rw [here, if_neg (by simp [idle, getting])]
  have queued : Work.event ∈ (s.recvStore letter).queue :=
    mem_queueWork.mpr (.inr rfl)
  have kept : (s.recvStore letter).received = s.received ∧
      (s.recvStore letter).fates = s.fates ∧ (s.recvStore letter).serials = s.serials ∧
      (s.recvStore letter).recvMsg = some letter := by
    unfold State.recvStore State.queueWork
    rw [if_neg idle]
    exact ⟨rfl, rfl, rfl, rfl⟩
  obtain ⟨received, fates, serials, recvMsg⟩ := kept
  have full : (s.recvStore letter).slot = [letter] := by
    unfold State.slot
    rw [if_pos (.inl queued), recvMsg]
    rfl
  constructor
  · have account := tracked.account
    simp only [inHand, here, empty] at account
    simp only [inHand, full, received, fates]
    exact account
  · rw [fates]
    exact tracked.fits
  · have ordered := tracked.ordered
    rw [here] at ordered
    rw [received]
    exact ordered
  · have fresh := tracked.fresh
    rw [here] at fresh
    rw [received, serials]
    exact fresh
  · exact queueWork_nodup (s := { s with recvMsg := some letter }) tracked.nodup _
  · intro get
    cases get
  · intro stage there
    cases there
    trivial
  · intro waiting member
    rw [full] at member
    cases List.mem_singleton.mp member
    exact tracked.stage _ here

theorem Tracked.recvGet (tracked : s.Tracked config) (here : s.running = some .recvGet) :
    s.recvGet.Tracked config := by
  have before : isBare s.running := by rw [here]; rfl
  unfold State.recvGet
  split
  · exact tracked.bare ⟨rfl, rfl, rfl, rfl, tracked.nodup, .rfl⟩ before rfl
  · exact tracked.bare ⟨rfl, rfl, rfl, rfl, tracked.nodup, .rfl⟩ before rfl

theorem Tracked.recvDone (tracked : s.Tracked config) (here : s.running = some .recvDone) :
    (if s.fifo.isEmpty then s.finish else s.goTo .recvGet).Tracked config := by
  have before : isBare s.running := by rw [here]; rfl
  split_ifs
  · exact tracked.bare ⟨rfl, rfl, rfl, rfl, tracked.nodup, .rfl⟩ before rfl
  · exact tracked.bare ⟨rfl, rfl, rfl, rfl, tracked.nodup, .rfl⟩ before rfl

theorem Tracked.gets (tracked : s.Tracked config) {letter : Letter} {stage : Stage}
    (here : s.running = some .eventGet) (waiting : s.recvMsg = some letter)
    (kept : eventLetter (some stage) = [letter] ∧ recvLetter (some stage) = [] ∧
      newLetter (some stage) = [] ∧ getting (some stage) = false)
    (checked : stage.Checked config) : (s.goTo stage).Tracked config := by
  obtain ⟨event, recv, new, away⟩ := kept
  have alone : .event ∉ s.queue := tracked.alone (by rw [here]; rfl)
  have full : s.slot = [letter] := by
    unfold State.slot
    rw [if_pos (.inr (by rw [here]; rfl)), waiting]
    rfl
  have empty : (s.goTo stage).slot = [] := by
    unfold State.slot
    rw [if_neg]
    simp [goTo, alone, away]
  constructor
  · have account := tracked.account
    simp only [inHand, here, full] at account
    simp only [inHand, empty]
    simp only [goTo, event, recv]
    exact account
  · exact tracked.fits
  · have ordered := tracked.ordered
    rw [here] at ordered
    simp only [goTo, new]
    exact ordered
  · have fresh := tracked.fresh
    rw [here] at fresh
    simp only [goTo, new]
    exact fresh
  · exact tracked.nodup
  · intro _
    exact alone
  · intro stage' there
    cases there
    exact checked
  · rw [empty]
    simp

theorem Tracked.eventGet (tracked : s.Tracked config) (here : s.running = some .eventGet) :
    (s.eventGet config).Tracked config := by
  unfold State.eventGet
  split
  · rename_i empty
    have alone : .event ∉ s.queue := tracked.alone (by rw [here]; rfl)
    have slot : s.slot = [] := by
      simp [State.slot, empty]
    have slot' : s.finish.slot = [] := by
      simp [State.slot, finish, empty]
    constructor
    · have account := tracked.account
      simp only [inHand, here, slot] at account
      simp only [inHand, slot']
      exact account
    · exact tracked.fits
    · have ordered := tracked.ordered
      rw [here] at ordered
      exact ordered
    · have fresh := tracked.fresh
      rw [here] at fresh
      exact fresh
    · exact tracked.nodup
    · intro _
      exact alone
    · intro stage there
      cases there
    · rw [slot']
      simp
  · rename_i letter waiting
    have sound : Sound config letter.msg := by
      apply tracked.slot
      unfold State.slot
      rw [if_pos (.inr (by rw [here]; rfl)), waiting]
      exact List.mem_singleton.mpr rfl
    have good : ¬(!letter.msg.body.isAckNckMsg && config.checkCrc &&
        decide (letter.msg.crcGood = 0)) = true → letter.msg.crcGood ≠ 0 := by
      intro passes bad
      obtain ⟨checks, other⟩ := sound bad
      exact passes (by simp [checks, other, bad])
    split_ifs with fails replies
    · apply tracked.gets here waiting ⟨rfl, rfl, rfl, rfl⟩
      simp only [Bool.and_eq_true, decide_eq_true_eq] at fails
      exact ⟨fun _ => fails.2, fun _ => rfl⟩
    · apply tracked.gets here waiting ⟨rfl, rfl, rfl, rfl⟩
      exact ⟨fun no => (by cases no), fun bad => absurd bad (good fails)⟩
    · apply tracked.gets here waiting ⟨rfl, rfl, rfl, rfl⟩
      exact good fails

theorem Tracked.eventReply (tracked : s.Tracked config) {letter : Letter} {nck allocated : Bool}
    (here : s.running = some (.eventReply letter nck))
    (goes : s.eventReply letter nck allocated = some s') : s'.Tracked config := by
  unfold State.eventReply at goes
  split at goes
  · cases goes
    exact tracked.replied (.inl here)
  · split at goes
    · cases goes
      refine tracked.goes ⟨rfl, rfl, rfl, rfl, tracked.nodup, .rfl⟩ ?event ?recv ?new ?get
        ?checked
      case checked =>
        intro stage there
        cases there
        exact tracked.stage (.eventReply letter nck) here
      all_goals rw [here]; rfl
    · cases goes

theorem Tracked.eventAlloc (tracked : s.Tracked config) {letter : Letter} (allocated : Bool)
    (here : s.running = some (.eventAlloc letter)) :
    (s.eventAlloc letter allocated).Tracked config := by
  have good : letter.msg.crcGood ≠ 0 := tracked.stage _ here
  unfold State.eventAlloc
  split_ifs
  · apply tracked.settled
    case fits => exact ⟨good, rfl⟩
    all_goals rw [here]; rfl
  · apply tracked.settled
    case fits => exact good
    all_goals rw [here]; rfl

theorem Tracked.sendCheck (tracked : s.Tracked config) (here : s.running = some .sendCheck) :
    s.sendCheck.Tracked config := by
  have before : isBare s.running := by rw [here]; rfl
  unfold State.sendCheck
  split
  · exact tracked.bare ⟨rfl, rfl, rfl, rfl, tracked.nodup, .rfl⟩ before rfl
  · split_ifs
    · exact tracked.bare ⟨rfl, rfl, rfl, rfl, tracked.nodup, .rfl⟩ before rfl
    · split <;> exact tracked.bare ⟨rfl, rfl, rfl, rfl, tracked.nodup, .rfl⟩ before rfl

theorem Tracked.sendAttempt (tracked : s.Tracked config) {ackNck wrote : Bool}
    (here : s.running = some (.sendAttempt ackNck))
    (goes : s.sendAttempt config.toConfig ackNck wrote = some s') : s'.Tracked config := by
  have before : isBare s.running := by rw [here]; rfl
  unfold State.sendAttempt at goes
  split at goes
  · obtain ⟨t, stops, rfl⟩ := Option.map_eq_some_iff.mp goes
    obtain ⟨-, rfl⟩ := stopAckReceiveTimer_eq stops
    exact tracked.bare ⟨rfl, rfl, rfl, rfl, tracked.nodup, .rfl⟩ before rfl
  · obtain ⟨msg, -, rfl⟩ := Option.map_eq_some_iff.mp goes
    split
    · exact tracked.bare ⟨rfl, rfl, rfl, rfl, tracked.nodup, .rfl⟩ before rfl
    · dsimp only
      split_ifs
      · exact tracked.bare ⟨rfl, rfl, rfl, rfl, tracked.nodup, .rfl⟩ before rfl
      · exact tracked.bare ⟨rfl, rfl, rfl, rfl, tracked.nodup, .rfl⟩ before rfl

theorem Tracked.sendWritten (tracked : s.Tracked config) (ackNck : Bool)
    (here : s.running = some (.sendWritten ackNck)) : (s.sendWritten ackNck).Tracked config := by
  have before : isBare s.running := by rw [here]; rfl
  unfold State.sendWritten
  split_ifs
  · exact tracked.bare ⟨rfl, rfl, rfl, rfl, tracked.nodup, .rfl⟩ before rfl
  · exact tracked.bare ⟨rfl, rfl, rfl, rfl, tracked.nodup, .rfl⟩ before rfl

theorem Tracked.start (tracked : s.Tracked config) (goes : s.start = some s') :
    s'.Tracked config := by
  unfold State.start at goes
  split at goes
  · rename_i work queue idle queued
    cases goes
    have nodup := tracked.nodup
    rw [queued] at nodup
    obtain ⟨apart, rest⟩ := List.nodup_cons.mp nodup
    cases work with
    | event =>
      have slot : (({ s with queue := queue } : State).goTo .eventGet).slot = s.slot := by
        unfold State.slot
        rw [if_pos (.inr rfl), if_pos (.inl (by rw [queued]; exact List.mem_cons_self))]
        rfl
      constructor
      · have account := tracked.account
        simp only [inHand, idle] at account
        simp only [inHand, slot]
        exact account
      · exact tracked.fits
      · have ordered := tracked.ordered
        rw [idle] at ordered
        exact ordered
      · have fresh := tracked.fresh
        rw [idle] at fresh
        exact fresh
      · exact rest
      · exact fun _ => apart
      · intro stage there
        cases there
        trivial
      · rw [slot]
        exact tracked.slot
    | recv | send =>
      have event : Work.event ∈ queue ↔ .event ∈ s.queue := by
        rw [queued]
        simp
      exact tracked.bare ⟨rfl, rfl, rfl, rfl, rest, event⟩ (by rw [idle]; rfl) rfl
  · cases goes

theorem Tracked.workStep (tracked : s.Tracked config) {oracle : Oracle}
    (careful : Receives s (.work oracle)) (goes : s.workStep config oracle = some s') :
    s'.Tracked config := by
  unfold State.workStep at goes
  unfold Receives at careful
  split at goes
  case h_1 here => exact tracked.start goes
  case h_2 here => cases goes; exact tracked.recvGet here
  case h_3 flag here => exact tracked.recvCheck here goes
  case h_4 flag waitAck here => exact tracked.recvLooked here goes
  case h_5 flag here => cases goes; exact tracked.recvRead _ _ here
  case h_6 flag letter here =>
    rw [here] at careful
    exact tracked.recvHandle here careful goes
  case h_7 letter here => exact tracked.recvLock here goes
  case h_8 letter here => exact tracked.recvRestart here goes
  case h_9 letter here =>
    rw [here] at careful
    cases goes
    exact tracked.recvStore here careful
  case h_10 here => cases goes; exact tracked.recvDone here
  case h_11 here => cases goes; exact tracked.eventGet here
  case h_12 letter nck here => exact tracked.eventReply here goes
  case h_13 => cases goes
  case h_14 letter here => cases goes; exact tracked.eventAlloc _ here
  case h_15 here => cases goes; exact tracked.sendCheck here
  case h_16 here =>
    cases goes
    exact tracked.bare ⟨rfl, rfl, rfl, rfl, tracked.nodup, .rfl⟩ (by rw [here]; rfl) rfl
  case h_17 ackNck here => exact tracked.sendAttempt here goes
  case h_18 ackNck here => cases goes; exact tracked.sendWritten _ here
  case h_19 here =>
    cases goes
    exact tracked.bare ⟨rfl, rfl, rfl, rfl, tracked.nodup, .rfl⟩ (by rw [here]; rfl) rfl

theorem Tracked.step (tracked : s.Tracked config) {move : Move} (careful : Receives s move)
    (taken : step config s move = some s') : s'.Tracked config := by
  cases move with
  | setErrorFlag bits => cases taken; exact tracked.setErrorFlag bits
  | clrErrorFlag =>
    cases taken
    exact tracked.same ⟨rfl, rfl, rfl, rfl, tracked.nodup, .rfl⟩ rfl
  | msgHandler => cases taken; exact tracked.queued (by simp)
  | handshake =>
    cases taken
    exact tracked.same ⟨rfl, rfl, rfl, rfl, tracked.nodup, .rfl⟩ rfl
  | eventReset => cases taken; exact tracked.eventReset careful.1 careful.2
  | exitSmWork =>
    cases taken
    exact tracked.same ⟨rfl, rfl, rfl, rfl, tracked.nodup, .rfl⟩ rfl
  | work oracle => exact tracked.workStep careful taken
  | callerLocks thread msg => exact tracked.callerLocks taken
  | sendMsg =>
    simp only [UfcsWorker.step] at taken
    split at taken
    · exact tracked.sendMsg taken
    · cases taken
  | ackReceiveTimeout => exact tracked.timers (.inl taken)
  | ackReceiveQueue => exact tracked.timers (.inr (.inl taken))
  | msgTransDelayTimeout => exact tracked.timers (.inr (.inr (.inl taken)))
  | msgTransDelayGo => exact tracked.timers (.inr (.inr (.inr taken)))

theorem Tracked.initial : ({} : State).Tracked config := by
  constructor
  · rfl
  · simp
  · exact List.Pairwise.nil
  · simp [newLetter]
  · exact List.nodup_nil
  · simp
  · simp
  · simp [State.slot]

theorem Tracked.handled (tracked : s.Tracked config) : s.Handled where
  account := tracked.account
  fits := tracked.fits
  ordered := by
    have ordered := tracked.ordered
    rw [List.map_append] at ordered
    exact (List.pairwise_append.mp ordered).1

end State

instance (s : State) (move : Move) : Decidable (Receives s move) := by
  unfold Receives
  split
  · infer_instance
  · split <;> infer_instance
  · infer_instance

/-- In a run in which no message is put into the slot, or taken out of it by a reset, while
another waits there, every message comes to exactly one end, in the order of reading. -/
theorem handled_of_reachable (config : WorkerConfig) {s : State}
    (reached : Reachable Initial (StepOf (step config) Receives) s) : s.Handled := by
  have tracked : s.Tracked config := by
    induction reached with
    | start initial =>
      cases initial
      exact State.Tracked.initial
    | next _ taken ih =>
      obtain ⟨move, careful, stepped⟩ := taken
      exact ih.step careful stepped
  exact tracked.handled

def pingReceived : List Move :=
  [.work {}, .work {}, .work { buf := some [0x40#8, 0x08#8, 0x00#8] }, .work {}, .work {}, .work {},
    .work {}]

def pingHandledMoves : List Move :=
  [.setErrorFlag 0x100#32, .msgHandler, .work {}] ++ pingReceived ++ [.work {}, .work {}, .work {},
    .work {}]

theorem pingHandledMoves_run :
    (play (step chipConfig) Receives {} pingHandledMoves).isSome := by
  decide +kernel

def pingHandled : State :=
  (play (step chipConfig) Receives {} pingHandledMoves).get pingHandledMoves_run

theorem pingHandled_received :
    pingHandled.received.length = 1 ∧ pingHandled.fates.map Prod.snd = [.event .recvPing] ∧
      pingHandled.Handled :=
  ⟨by decide +kernel, by decide +kernel,
    handled_of_reachable chipConfig (play_reachable (.start start_initial) pingHandledMoves_run)⟩

def pingsLostMoves : List Move :=
  [.setErrorFlag 0x100#32, .setErrorFlag 0x100#32, .msgHandler, .work {}] ++ pingReceived ++
    [.work {}] ++ pingReceived

theorem pingsLostMoves_run :
    (play (step chipConfig) (fun _ _ => True) {} pingsLostMoves).isSome := by
  decide +kernel

def pingsLost : State :=
  (play (step chipConfig) (fun _ _ => True) {} pingsLostMoves).get pingsLostMoves_run

theorem pingsLost_not_handled :
    Reachable Initial (StepOf (step chipConfig) fun _ _ => True) pingsLost ∧
      ¬pingsLost.Handled := by
  refine ⟨play_reachable (.start start_initial) pingsLostMoves_run, fun handled => ?_⟩
  have received : pingsLost.received.length = 2 := by decide +kernel
  have known : (pingsLost.fates.map Prod.fst ++ pingsLost.inHand).length = 1 := by
    decide +kernel
  rw [← handled.account, received] at known
  cases known

end VendorModules.UfcsWorker
