import VendorModules.Ufcs.RoundTrip
import VendorModules.Ufcs.Sender

/-!
# Whether a resent message is the same on the wire

Each transmission packs the message once more, and packing a data message converts the payload
that the sender keeps.
-/

namespace VendorModules.Ufcs

open Lib

/-- The place in the payload that packing reads the byte at `i` from. -/
def packSource (command : U8) (i : Nat) : Nat :=
  if DataMsgType.ofCommand command = some .powerChange then packedFrom i
  else mirror (DataMsgType.ofCommand command) i

def Settled : Body → Prop
  | .data command length bytes =>
    ∀ i < length.toNat,
      bytes (packSource command (packSource command i)) = bytes (packSource command i)
  | .ctrl _ | .vendor .. => True

/-- The messages whose transmissions are all alike: those that the code does not pack, those it
does not send a second time, and those that a second packing leaves alone. -/
def Repeatable (call : Call) (msg : Msg) : Prop :=
  Packable call.config msgSizeMax msg.body →
    call.config.msgResend = true ∨ call.retry = true → Settled msg.body

def Alike (s : SendState) : Prop :=
  ∀ frame ∈ s.transmissions, ∀ frame' ∈ s.transmissions, frame = frame'

/-! ## Packing again and again -/

theorem dataMsgPack_source (command : U8) (mem : Memory) (i : Nat) :
    dataMsgPack command mem i = mem (packSource command i) := by
  unfold packSource
  split_ifs with change
  · simp only [dataMsgPack, change, packDataMsgPowerChange_apply]
  · exact dataMsgPack_apply change mem i

theorem packSource_settles (command : U8) (i : Nat) :
    packSource command (packSource command (packSource command i)) = packSource command i ∨
      packSource command (packSource command (packSource command i)) =
        packSource command (packSource command i) := by
  unfold packSource
  split_ifs with change
  · right
    simp only [packedFrom]
    grind
  · left
    rw [mirror_mirror]

theorem iterate_settled {α : Type} {step : α → α} {a : α}
    (settles : step (step (step a)) = step a ∨ step (step (step a)) = step (step a)) (k : Nat) :
    step^[k + 1] a = step a ∨ step^[k + 1] a = step (step a) := by
  induction k with
  | zero => exact .inl rfl
  | succ k ih =>
    rw [Function.iterate_succ_apply']
    rcases ih with once | twice
    · exact .inr (congrArg step once)
    · rw [twice]
      exact settles

theorem dataMsgPack_iterate (command : U8) (mem : Memory) (k i : Nat) :
    (dataMsgPack command)^[k] mem i = mem ((packSource command)^[k] i) := by
  induction k generalizing i with
  | zero => rfl
  | succ k ih =>
    rw [Function.iterate_succ_apply', dataMsgPack_source, ih, Function.iterate_succ_apply]

theorem packedBody_iterate (command length : U8) (mem : Memory) (k : Nat) :
    packedBody^[k] (.data command length mem) =
      .data command length ((dataMsgPack command)^[k] mem) := by
  induction k with
  | zero => rfl
  | succ k ih => rw [Function.iterate_succ_apply', ih, Function.iterate_succ_apply']; rfl

theorem packedBody_iterate_other {body : Body} (other : packedBody body = body) (k : Nat) :
    packedBody^[k] body = body :=
  Function.iterate_fixed other k

theorem packedBody_type (body : Body) : (packedBody body).type = body.type := by
  cases body <;> rfl

theorem packedBody_iterate_type (body : Body) (k : Nat) :
    (packedBody^[k] body).type = body.type := by
  induction k with
  | zero => rfl
  | succ k ih => rw [Function.iterate_succ_apply', packedBody_type, ih]

theorem Settled.bodyBytes_iterate {body : Body} (settled : Settled body) (k : Nat) :
    bodyBytes (packedBody^[k] body) = bodyBytes body := by
  cases body with
  | ctrl command => rw [packedBody_iterate_other rfl]
  | vendor vndId length mem => rw [packedBody_iterate_other rfl]
  | data command length mem =>
    rw [packedBody_iterate]
    simp only [bodyBytes, payloadBytes]
    congr 2
    apply List.map_congr_left
    intro i inside
    have announced : i < length.toNat := List.mem_range.mp inside
    rw [← Function.iterate_succ_apply' (dataMsgPack command) k mem, dataMsgPack_iterate,
      dataMsgPack_source]
    rcases iterate_settled (packSource_settles command i) k with once | twice
    · rw [once]
    · rw [twice]
      exact settled i announced

theorem Packable.iterate {config : Config} {len : Nat} {body : Body} (k : Nat) :
    Packable config len (packedBody^[k] body) ↔ Packable config len body := by
  cases body with
  | ctrl command => rw [packedBody_iterate_other rfl]
  | vendor vndId length mem => rw [packedBody_iterate_other rfl]
  | data command length mem => rw [packedBody_iterate]; rfl

/-- The message after it was packed `k` times. -/
def Msg.packed (msg : Msg) (k : Nat) : Msg := { msg with body := packedBody^[k] msg.body }

theorem content_packed {msg : Msg} (settled : Settled msg.body) (k : Nat) :
    content (msg.packed k) = content msg := by
  have head : packHead (msg.packed k) = packHead msg := by
    simp [packHead, Msg.packed, packedBody_iterate_type]
  rw [content, content, head, Msg.packed, settled.bodyBytes_iterate k]

/-! ## Every transmission of a settled message -/

def frameOf (config : Config) (msg : Msg) : List U8 :=
  sealFrame config (content msg) (crc8Calculate (content msg) (content msg).length)

theorem sends_packed {call : Call} {msg : Msg} {s : SendState} (sends : Sends call msg s) :
    ∃ k, s.msg = msg.packed k := by
  induction sends with
  | start initial => exact ⟨0, by rw [initial]; rfl⟩
  | next _ taken ih =>
    obtain ⟨move, -, step⟩ := taken
    obtain ⟨k, kept⟩ := ih
    cases sendStep_writes step with
    | nothing same _ => exact ⟨k, same.trans kept⟩
    | frame _ packed after _ =>
      obtain ⟨-, -, rfl⟩ := (packMsg_ok _ _ _ _ _).mp packed
      refine ⟨k + 1, ?_⟩
      rw [after, kept]
      simp only [Msg.packed, Function.iterate_succ_apply']

theorem Settled.sends_frame {call : Call} {msg : Msg} (settled : Settled msg.body) {s : SendState}
    (sends : Sends call msg s) : ∀ frame ∈ s.transmissions, frame = frameOf call.config msg := by
  induction sends with
  | start initial =>
    rw [initial]
    exact fun _ none => nomatch none
  | next before taken ih =>
    obtain ⟨move, -, step⟩ := taken
    cases sendStep_writes step with
    | nothing _ same => rw [same]; exact ih
    | frame _ packed _ wire =>
      obtain ⟨k, kept⟩ := sends_packed before
      obtain ⟨-, written, -⟩ := (packMsg_ok _ _ _ _ _).mp packed
      rw [wire]
      intro frame among
      rcases List.mem_append.mp among with earlier | last
      · exact ih frame earlier
      · rw [List.mem_singleton.mp last, written, kept, content_packed settled]
        rfl

/-! ## At most one transmission -/

/-- Without resends and without a retry after a soft reset: once the message was written, the
sender's status does not get back to the start as long as the call waits for it. -/
structure WrittenOnce (s : SendState) : Prop where
  own : s.sending = some .own ↔ s.phase = .waiting
  once : s.transmissions = [] ∨
    s.transmissions.length = 1 ∧ s.phase ≠ .ready ∧
      (s.phase = .waiting → s.status ≠ .sendStart ∧ s.status ≠ .sendPending)

def SendStatus.Later (status : SendStatus) : Prop :=
  status ≠ .sendStart ∧ status ≠ .sendPending

theorem WrittenOnce.of_later {s s' : SendState} (written : WrittenOnce s)
    (sending : s'.sending = s.sending) (phase : s'.phase = s.phase)
    (wire : s'.transmissions = s.transmissions)
    (status : s.phase = .waiting → s.status.Later → s'.status.Later) : WrittenOnce s' where
  own := by rw [sending, phase]; exact written.own
  once := by
    rw [wire, phase]
    exact written.once.imp_right fun ⟨one, begun, later⟩ =>
      ⟨one, begun, fun waiting => status waiting (later waiting)⟩

theorem WrittenOnce.finish {s : SendState} (written : WrittenOnce s) {phase : Phase}
    (waits : phase ≠ .waiting) (begun : s.phase ≠ .ready → phase ≠ .ready) :
    WrittenOnce (s.finish phase) where
  own := ⟨(fun owned => nomatch owned), fun waiting => absurd waiting waits⟩
  once := written.once.imp_right fun ⟨one, ready, _⟩ =>
    ⟨one, begun ready, fun waiting => absurd waiting waits⟩

theorem attempt_others (call : Call) (s : SendState) {owner : Owner} (other : owner ≠ .own)
    (wrote : Bool) :
    (attempt call s owner wrote).sending = s.sending ∧
    (attempt call s owner wrote).phase = s.phase ∧
    (attempt call s owner wrote).transmissions = s.transmissions := by
  unfold attempt
  split_ifs
  · exact ⟨rfl, rfl, rfl⟩
  · cases owner with
    | own => exact absurd rfl other
    | softReset => cases wrote <;> exact ⟨rfl, rfl, rfl⟩
    | other ackNck => cases wrote <;> cases ackNck <;> exact ⟨rfl, rfl, rfl⟩

theorem WrittenOnce.attempt {call : Call} {s : SendState} (written : WrittenOnce s)
    (plain : s.msg.body.isAckNckMsg = false) (owned : s.sending = some .own)
    (unsent : s.transmissions = []) (wrote : Bool) :
    WrittenOnce (attempt call s .own wrote) := by
  have waiting : s.phase = .waiting := written.own.mp owned
  unfold Ufcs.attempt
  split_ifs with exhausted
  · exact written.of_later rfl rfl rfl fun _ _ => ⟨by simp [SendState.complete], by
      simp [SendState.complete]⟩
  · simp only [writeMsg]
    cases packed : packMsg call.config s.msg msgSizeMax with
    | error errno =>
      exact written.of_later rfl rfl rfl fun _ _ => ⟨by simp [SendState.complete], by
        simp [SendState.complete]⟩
    | ok result =>
      obtain ⟨frame, after⟩ := result
      have same : after.body.isAckNckMsg = false := by
        obtain ⟨-, -, rfl⟩ := (packMsg_ok _ _ _ _ _).mp packed
        cases body : s.msg.body <;> simp_all [packedBody, Body.isAckNckMsg]
      cases wrote with
      | false =>
        exact
          { own := written.own
            once := .inr ⟨by simp [SendState.complete, unsent], by simp [SendState.complete, waiting],
              fun _ => ⟨by simp [SendState.complete], by simp [SendState.complete]⟩⟩ }
      | true =>
        have told : SendState.ackNck { s with
            msg := after, transmissions := s.transmissions ++ [frame] } .own = false := same
        simp only [told, Bool.false_eq_true, if_false]
        exact
          { own := written.own
            once := .inr ⟨by simp [unsent], by simp [waiting], fun _ => ⟨by simp, by simp⟩⟩ }

theorem WrittenOnce.msgSendWork {call : Call} {s : SendState} (written : WrittenOnce s)
    (noResend : call.config.msgResend = false) (plain : s.msg.body.isAckNckMsg = false)
    (wrote : Bool) : WrittenOnce (msgSendWork call s wrote) := by
  unfold Ufcs.msgSendWork
  split
  · exact written
  · rename_i owner sending
    by_cases own : owner = .own
    · subst own
      have told : s.ackNck .own = false := plain
      have exhausted : call.retryMax ≤ s.msgRetryCount + 1 := by
        simp [Call.retryMax, noResend]
      simp only [told, Bool.false_eq_true, if_false]
      split
      all_goals try
        · simp only [Ufcs.attempt, exhausted, if_true]
          exact written.of_later rfl rfl rfl fun _ _ => ⟨by simp [SendState.complete], by
            simp [SendState.complete]⟩
      all_goals try exact written.of_later rfl rfl rfl fun _ later => later
      · rename_i start
        have unsent : s.transmissions = [] := by
          rcases written.once with none | ⟨_, _, later⟩
          · exact none
          · exact absurd start (later (written.own.mp sending)).1
        exact written.attempt plain sending unsent wrote
    · have idle : s.phase ≠ .waiting := by
        intro waiting
        have owned := written.own.mpr waiting
        rw [sending] at owned
        exact own (Option.some.inj owned)
      have others : ∀ t : SendState, t.sending = s.sending → t.phase = s.phase →
          t.transmissions = s.transmissions → WrittenOnce (Ufcs.attempt call t owner wrote) := by
        intro t sending' phase' wire'
        obtain ⟨sending'', phase'', wire''⟩ := attempt_others call t own wrote
        exact written.of_later (sending''.trans sending') (phase''.trans phase')
          (wire''.trans wire') fun waiting => absurd waiting idle
      split_ifs
      · exact others s rfl rfl rfl
      · split
        all_goals first
          | exact others _ rfl rfl rfl
          | exact written.of_later rfl rfl rfl fun waiting => absurd waiting idle

theorem WrittenOnce.step {call : Call} {s s' : SendState} {move : SendMove}
    (written : WrittenOnce s) (noResend : call.config.msgResend = false)
    (noRetry : call.retry = false) (plain : s.msg.body.isAckNckMsg = false)
    (step : sendStep call s move = some s') : WrittenOnce s' := by
  have unowned : s.sending = none → s.phase ≠ .waiting := by
    intro free waiting
    rw [written.own.mpr waiting] at free
    cases free
  cases move <;> simp only [sendStep] at step
  case sendMsg =>
    split at step
    · cases step
      rename_i ready _
      have unsent : s.transmissions = [] := by
        rcases written.once with none | ⟨_, begun, _⟩
        · exact none
        · exact absurd ready begun
      exact { own := ⟨fun _ => rfl, fun _ => rfl⟩, once := .inl unsent }
    · cases step
  case otherSends ackNck =>
    split at step
    · cases step
      rename_i free
      exact
        { own := ⟨(fun owned => by cases owned), fun waiting => absurd waiting (unowned free)⟩
          once := written.once }
    · cases step
  case sendSoftReset =>
    split at step
    · cases step
      exact
        { own := ⟨(fun owned => by cases owned), fun waiting => by cases waiting⟩
          once := written.once.imp_right fun sent =>
            ⟨sent.1, (fun ready => by cases ready), fun waiting => by cases waiting⟩ }
    · cases step
  case softResetAllocFails =>
    split at step
    · cases step
      rename_i resetting
      have unwaited : s.sending ≠ some .own := by
        intro owned
        rw [written.own.mp owned] at resetting
        cases resetting
      exact
        { own := ⟨fun owned => absurd owned unwaited, fun waiting => by cases waiting⟩
          once := written.once.imp_right fun sent =>
            ⟨sent.1, (fun ready => by cases ready), fun waiting => by cases waiting⟩ }
    · cases step
  case msgSendWork wrote =>
    split_ifs at step
    cases step
    have queued : WrittenOnce { s with queued := false } :=
      written.of_later rfl rfl rfl fun _ later => later
    exact queued.msgSendWork noResend plain wrote
  case wake =>
    split_ifs at step with woken
    cases step
    have waiting := written.own.mp woken.1
    unfold sendMsgWoken
    split
    · dsimp only
      have reset : WrittenOnce { s with softReset := true } :=
        written.of_later rfl rfl rfl fun _ later => later
      split_ifs
      · exact written.finish (fun h => by cases h) fun _ h => by cases h
      · exact reset.finish (fun h => by cases h) fun _ h => by cases h
      · exact reset.finish (fun h => by cases h) fun _ h => by cases h
    · exact written.finish (fun h => by cases h) fun _ h => by cases h
  case wakeSoftReset =>
    split_ifs at step
    cases step
    unfold softResetWoken
    split
    · rw [noRetry]
      exact written.finish (fun h => by cases h) fun _ h => by cases h
    · exact written.finish (fun h => by cases h) fun _ h => by cases h
  case wakeOther =>
    split at step
    · split_ifs at step
      cases step
      rename_i other _
      refine written.finish (fun waiting => ?_) id
      rw [written.own.mpr waiting] at other
      cases other
    · cases step
  case restartDelay =>
    split at step
    · cases step
      rename_i free
      exact written.of_later rfl rfl rfl fun waiting => absurd waiting (unowned free)
    · cases step
  case msgTransDelayTimeout =>
    split_ifs at step with armed pending
    · cases step
      refine written.of_later rfl rfl rfl fun _ later => absurd pending later.2
    · cases step
      exact written.of_later rfl rfl rfl fun _ later => later
  all_goals
    repeat' split at step
    all_goals first
      | (cases step
         refine written.of_later rfl rfl rfl fun _ later => ?_
         first
           | exact later
           | exact ⟨by simp [SendState.complete], by simp [SendState.complete]⟩)
      | (cases step)

theorem WrittenOnce.alike {s : SendState} (written : WrittenOnce s) : Alike s := by
  intro frame among frame' among'
  rcases written.once with none | ⟨one, -, -⟩
  · rw [none] at among
    cases among
  · obtain ⟨only, wire⟩ := List.length_eq_one_iff.mp one
    rw [wire] at among among'
    rw [List.mem_singleton.mp among, List.mem_singleton.mp among']

theorem packed_isAckNckMsg {msg : Msg} (plain : msg.body.isAckNckMsg = false) (k : Nat) :
    (msg.packed k).body.isAckNckMsg = false := by
  induction k with
  | zero => exact plain
  | succ k ih =>
    simp only [Msg.packed, Function.iterate_succ_apply'] at ih ⊢
    cases body : packedBody^[k] msg.body <;> rw [body] at ih <;> exact ih

theorem sends_writtenOnce {call : Call} {msg : Msg} (noResend : call.config.msgResend = false)
    (noRetry : call.retry = false) (plain : msg.body.isAckNckMsg = false) {s : SendState}
    (sends : Sends call msg s) : WrittenOnce s := by
  induction sends with
  | start initial =>
    rw [initial]
    exact { own := ⟨(fun owned => nomatch owned), fun waiting => nomatch waiting⟩, once := .inl rfl }
  | next before taken ih =>
    obtain ⟨move, -, step⟩ := taken
    obtain ⟨k, kept⟩ := sends_packed before
    exact ih.step noResend noRetry (kept ▸ packed_isAckNckMsg plain k) step

theorem sends_unpackable {call : Call} {msg : Msg}
    (refused : ¬Packable call.config msgSizeMax msg.body) {s : SendState}
    (sends : Sends call msg s) : s.transmissions = [] := by
  induction sends with
  | start initial => rw [initial]
  | next before taken ih =>
    obtain ⟨move, -, step⟩ := taken
    cases sendStep_writes step with
    | nothing _ same => exact same.trans ih
    | frame _ packed _ _ =>
      obtain ⟨k, kept⟩ := sends_packed before
      obtain ⟨packs, -, -⟩ := (packMsg_ok _ _ _ _ _).mp packed
      rw [kept] at packs
      exact absurd ((Packable.iterate k).mp packs) refused

/-! ## A message that is written twice -/

def bothFrames (config : Config) (msg : Msg) : List (List U8) :=
  [frameOf config msg, frameOf config (msg.packed 1)]

theorem packMsg_packable {config : Config} {msg : Msg}
    (packs : Packable config msgSizeMax msg.body) :
    packMsg config msg msgSizeMax = .ok (frameOf config msg, msg.packed 1) :=
  (packMsg_ok _ _ _ _ _).mpr ⟨packs, rfl, rfl⟩

theorem packMsg_again {config : Config} {msg : Msg}
    (packs : Packable config msgSizeMax msg.body) :
    packMsg config (msg.packed 1) msgSizeMax =
      .ok (frameOf config (msg.packed 1), msg.packed 2) :=
  (packMsg_ok _ _ _ _ _).mpr ⟨(Packable.iterate 1).mpr packs, rfl, rfl⟩

def sentOnce (call : Call) (msg : Msg) : SendState :=
  { msg := msg.packed 1
    phase := .waiting
    sending := some .own
    status := .waitAck
    ackReceiveTimer := true
    transmissions := [frameOf call.config msg] }

theorem sends_sentOnce {call : Call} {msg : Msg} (plain : msg.body.isAckNckMsg = false)
    (packs : Packable call.config msgSizeMax msg.body) : Sends call msg (sentOnce call msg) := by
  have plain' : (msg.packed 1).body.isAckNckMsg = false := packed_isAckNckMsg plain 1
  have unspent : ¬call.retryMax ≤ 0 := by
    simp only [Call.retryMax, msgRetryCountMax]
    split_ifs <;> decide
  have start : Sends call msg { msg := msg } := .start rfl
  have begun : Sends call msg (SendState.begin { msg := msg } .own .waiting) :=
    start.next .sendMsg rfl
  exact begun.next (.msgSendWork true) (by
    simp [sendStep, msgSendWork, SendState.begin, SendState.ackNck, plain, attempt, unspent,
      writeMsg, packMsg_packable packs, plain', sentOnce])

theorem sends_twice_nck {call : Call} {msg : Msg} (plain : msg.body.isAckNckMsg = false)
    (packs : Packable call.config msgSizeMax msg.body) (resend : call.config.msgResend = true) :
    ∃ s, Sends call msg s ∧ s.transmissions = bothFrames call.config msg := by
  have plain' : (msg.packed 1).body.isAckNckMsg = false := packed_isAckNckMsg plain 1
  have plain'' : (msg.packed 2).body.isAckNckMsg = false := packed_isAckNckMsg plain 2
  have unspent : ¬call.retryMax ≤ 1 := by simp [Call.retryMax, msgRetryCountMax, resend]
  have nacked : Sends call msg
      { msg := msg.packed 1, phase := .waiting, sending := some .own, status := .nck,
        queued := true, transmissions := [frameOf call.config msg] } :=
    (sends_sentOnce plain packs).next (.recvAckNck false) (by simp [sendStep, sentOnce])
  have again : Sends call msg
      { msg := msg.packed 2, phase := .waiting, sending := some .own, status := .waitAck,
        msgRetryCount := 1, ackReceiveTimer := true,
        transmissions := bothFrames call.config msg } :=
    nacked.next (.msgSendWork true) (by
      simp [sendStep, msgSendWork, SendState.ackNck, plain', attempt, unspent, writeMsg,
        packMsg_again packs, plain'', bothFrames])
  exact ⟨_, again, rfl⟩

theorem sends_twice_retry {call : Call} {msg : Msg}
    (data : ∃ command length bytes, msg.body = .data command length bytes)
    (packs : Packable call.config msgSizeMax msg.body) (once : call.config.msgResend = false)
    (retry : call.retry = true) :
    ∃ s, Sends call msg s ∧ s.transmissions = bothFrames call.config msg := by
  obtain ⟨command, length, bytes, body⟩ := data
  have plain : msg.body.isAckNckMsg = false := by rw [body]; rfl
  have plain' : (msg.packed 1).body.isAckNckMsg = false := packed_isAckNckMsg plain 1
  have plain'' : (msg.packed 2).body.isAckNckMsg = false := packed_isAckNckMsg plain 2
  have resets : (msg.packed 1).body.isSoftResetMsg = false ∧
      (msg.packed 1).body.isPingMsg = false := by
    simp only [Msg.packed, body, Function.iterate_one]
    exact ⟨rfl, rfl⟩
  have max : call.retryMax = 1 := by simp [Call.retryMax, once]
  have nacked : Sends call msg
      { msg := msg.packed 1, phase := .waiting, sending := some .own, status := .nck,
        queued := true, transmissions := [frameOf call.config msg] } :=
    (sends_sentOnce plain packs).next (.recvAckNck false) (by simp [sendStep, sentOnce])
  have exhausted : Sends call msg
      { msg := msg.packed 1, phase := .waiting, sending := some .own, status := .retryOver,
        msgRetryCount := 1, acked := true, transmissions := [frameOf call.config msg] } :=
    nacked.next (.msgSendWork true) (by
      simp [sendStep, msgSendWork, SendState.ackNck, plain', attempt, max, SendState.complete])
  have resetting : Sends call msg
      { msg := msg.packed 1, phase := .resetting, softReset := true, status := .sendPending,
        msgRetryCount := 1, acked := true, msgTransDelayTimer := true,
        transmissions := [frameOf call.config msg] } :=
    exhausted.next .wake (by
      simp [sendStep, sendMsgWoken, SendStatus.result, plain', resets, SendState.finish])
  have reset : Sends call msg
      { msg := msg.packed 1, phase := .waitingReset, softReset := true,
        sending := some .softReset, status := .sendPending, queued := true,
        msgTransDelayTimer := true, transmissions := [frameOf call.config msg] } :=
    resetting.next .sendSoftReset rfl
  have delayed : Sends call msg
      { msg := msg.packed 1, phase := .waitingReset, softReset := true,
        sending := some .softReset, status := .sendStart, queued := true,
        transmissions := [frameOf call.config msg] } :=
    reset.next .msgTransDelayTimeout (by simp [sendStep])
  have resetSent : Sends call msg
      { msg := msg.packed 1, phase := .waitingReset, softReset := true,
        sending := some .softReset, status := .waitAck, ackReceiveTimer := true,
        transmissions := [frameOf call.config msg] } :=
    delayed.next (.msgSendWork true) (by
      simp [sendStep, msgSendWork, SendState.ackNck, attempt, max, writeMsg])
  have resetAcked : Sends call msg
      { msg := msg.packed 1, phase := .waitingReset, softReset := true,
        sending := some .softReset, status := .sendOk, acked := true,
        transmissions := [frameOf call.config msg] } :=
    resetSent.next (.recvAckNck true) (by simp [sendStep, SendState.complete])
  have ready : Sends call msg
      { msg := msg.packed 1, softReset := true, status := .sendPending, acked := true,
        msgTransDelayTimer := true, transmissions := [frameOf call.config msg] } :=
    resetAcked.next .wakeSoftReset (by
      simp [sendStep, softResetWoken, SendStatus.result, retry, SendState.finish])
  have begun : Sends call msg
      { msg := msg.packed 1, phase := .waiting, softReset := true, sending := some .own,
        status := .sendPending, queued := true, msgTransDelayTimer := true,
        transmissions := [frameOf call.config msg] } :=
    ready.next .sendMsg rfl
  have restarted : Sends call msg
      { msg := msg.packed 1, phase := .waiting, softReset := true, sending := some .own,
        status := .sendStart, queued := true, transmissions := [frameOf call.config msg] } :=
    begun.next .msgTransDelayTimeout (by simp [sendStep])
  have again : Sends call msg
      { msg := msg.packed 2, phase := .waiting, softReset := true, sending := some .own,
        status := .waitAck, ackReceiveTimer := true,
        transmissions := bothFrames call.config msg } :=
    restarted.next (.msgSendWork true) (by
      simp [sendStep, msgSendWork, SendState.ackNck, plain', attempt, max, writeMsg,
        packMsg_again packs, plain'', bothFrames])
  exact ⟨_, again, rfl⟩

theorem settled_of_frames {config : Config} {msg : Msg} {command length : U8} {bytes : Memory}
    (body : msg.body = .data command length bytes)
    (same : frameOf config msg = frameOf config (msg.packed 1)) : Settled msg.body := by
  have size : (content msg).length = (content (msg.packed 1)).length := by
    simp [content, Msg.packed, body, packedBody, bodyBytes, payloadBytes, cpuToBe16]
  have contents : content msg = content (msg.packed 1) := by
    rw [frameOf, frameOf, sealFrame_eq, sealFrame_eq] at same
    exact (List.append_inj same size).1
  have bodies : bodyBytes msg.body = bodyBytes (packedBody msg.body) :=
    (List.append_inj contents rfl).2
  rw [body] at bodies ⊢
  intro i announced
  simp only [bodyBytes, packedBody, payloadBytes, List.cons.injEq, true_and] at bodies
  have byte := List.map_inj_left.mp bodies i (List.mem_range.mpr announced)
  rw [dataMsgPack_source, dataMsgPack_source, dataMsgPack_source] at byte
  exact byte.symm

/-- Whatever is acknowledged, refused or timed out: every transmission of the message in every
run is the same exactly when the message is repeatable. -/
theorem transmissions_alike_iff (call : Call) (msg : Msg) :
    (∀ s, Sends call msg s → Alike s) ↔ Repeatable call msg := by
  constructor
  · intro alike packs again
    cases body : msg.body with
    | ctrl command => trivial
    | vendor vndId length bytes => trivial
    | data command length bytes =>
      have plain : msg.body.isAckNckMsg = false := by rw [body]; rfl
      have twice : ∃ s, Sends call msg s ∧ s.transmissions = bothFrames call.config msg := by
        by_cases resend : call.config.msgResend = true
        · exact sends_twice_nck plain packs resend
        · exact sends_twice_retry ⟨_, _, _, body⟩ packs (by simpa using resend)
            (again.resolve_left resend)
      obtain ⟨s, sends, wire⟩ := twice
      have same : frameOf call.config msg = frameOf call.config (msg.packed 1) :=
        alike s sends _ (by simp [wire, bothFrames]) _ (by simp [wire, bothFrames])
      exact body ▸ settled_of_frames body same
  · intro repeatable s sends frame among frame' among'
    by_cases packs : Packable call.config msgSizeMax msg.body
    · by_cases again : call.config.msgResend = true ∨ call.retry = true
      · have settled := repeatable packs again
        rw [settled.sends_frame sends frame among, settled.sends_frame sends frame' among']
      · obtain ⟨noResend, noRetry⟩ := not_or.mp again
        by_cases plain : msg.body.isAckNckMsg = false
        · exact (sends_writtenOnce (by simpa using noResend) (by simpa using noRetry) plain
            sends).alike frame among frame' among'
        · have settled : Settled msg.body := by
            cases body : msg.body with
            | ctrl command => trivial
            | vendor vndId length bytes => trivial
            | data command length bytes => exact absurd (by rw [body]; rfl) plain
          rw [settled.sends_frame sends frame among, settled.sends_frame sends frame' among']
    · rw [sends_unpackable packs sends] at among
      cases among

/-- The watchdog time of 5 s is refused once: it goes out as 5000 ms and then as 34835 ms. -/
theorem watchdog_not_alike :
    ¬∀ s, Sends { config := ⟨false, true⟩, retry := true } watchdogMsg s → Alike s := by
  intro alike
  have packs : Packable ⟨false, true⟩ msgSizeMax watchdogMsg.body :=
    show 3 + (2 + 2) ≤ 64 by decide
  have twice : ∃ s, Sends { config := ⟨false, true⟩, retry := true } watchdogMsg s ∧
      s.transmissions = bothFrames ⟨false, true⟩ watchdogMsg := sends_twice_nck rfl packs rfl
  obtain ⟨s, sends, wire⟩ := twice
  have same : frameOf ⟨false, true⟩ watchdogMsg = frameOf ⟨false, true⟩ (watchdogMsg.packed 1) :=
    alike s sends _ (by simp [wire, bothFrames]) _ (by simp [wire, bothFrames])
  exact absurd same (by decide)

end VendorModules.Ufcs
