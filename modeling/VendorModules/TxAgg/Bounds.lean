import VendorModules.TxAgg.Flushed

/-!
# The size of an aggregate

One caller after the other hands in packets, while the configuration is updated and what is
aggregated is flushed at any time.
-/

namespace VendorModules.TxAgg

open Function

/-- The calls of `rmnet_map_tx_aggregate`, one after the other: the packet of the call that is
under way, and how often it has gone back to `new_packet`. -/
structure Caller where
  state : State
  current : Option Packet := none
  retries : Nat := 0

inductive Event
  | updateConfig (size : BitVec 16) (count : BitVec 8)
  | flush
  | call (pkt : Packet)
  /-- From `new_packet` to the end, or back. -/
  | attempt (now stamp : Int) (built : Bool)
  deriving DecidableEq

namespace Caller

/-- A port as `rmnet_map_tx_aggregate_init` leaves it. -/
def init (port : Port) : Caller where
  state := { params := { aggSize := 0, aggCount := 0 } : State }.updateUlAggConfig port
    (pageSize - 1) 20

variable (port : Port) (c : Caller)

/-- One pass of `rmnet_map_tx_aggregate`, with what it does behind the lock. -/
def attempt (pkt : Packet) (now stamp : Int) (built : Bool) : Caller :=
  let s := c.state.txAggregate port pkt.sender pkt now stamp built
  match s.phase pkt.sender with
  | .retrying _ => { c with state := { s with timerArmed := false }, retries := c.retries + 1 }
  | .clearing pkt behind =>
    { c with
      state := ({ s with timerArmed := false }.transmit [pkt] behind).goto pkt.sender .idle
      current := none }
  | .sending pkt behind =>
    { c with state := (s.transmit [pkt] behind).goto pkt.sender .idle, current := none }
  | _ => { c with state := s, current := none }

def step (event : Event) : Option Caller :=
  if c.state.panicked then none
  else
    match event with
    | .updateConfig size count =>
      some { c with state := c.state.updateUlAggConfig port size.toNat count.toNat }
    | .flush => some { c with state := c.state.flushTxPacketWork }
    | .call pkt =>
      if c.current.isSome then none else some { c with current := some pkt, retries := 0 }
    | .attempt now stamp built => c.current.map fun pkt => c.attempt port pkt now stamp built

def trace (c : Caller) : List Event → List Caller
  | [] => [c]
  | event :: events =>
    c :: match c.step port event with
      | none => []
      | some c' => trace c' events

end Caller

def AggSkb.used (agg : AggSkb) : Nat := (agg.packets.map fun pkt => pkt.len.toNat).sum

/-- Every copy had room in a buffer of some page order, what is aggregated keeps to the
configuration unless it is one packet, and the call goes back once at most. -/
structure Caller.Good (port : Port) (c : Caller) : Prop where
  copied : c.state.panicked = false
  fits : ∀ agg, c.state.aggSkb = some agg →
    ∃ order, agg.used + agg.tailroom = port.room order
  size : ∀ agg, c.state.aggSkb = some agg → 2 ≤ agg.packets.length →
    agg.used ≤ c.state.params.aggSize
  count : ∀ agg, c.state.aggSkb = some agg → 2 ≤ agg.packets.length →
    agg.packets.length ≤ c.state.params.aggCount
  retried : c.retries ≤ 1

/-- What `agg_size` becomes by an update. -/
def Port.configured (port : Port) (size : Nat) : Nat :=
  if size < pageSize then size
  else ((pageSize * 2 ^ getOrder size) % 65536 + 65536 - port.sharedInfo % 65536) % 65536

/-- An update leaves room for what two packets or more have been aggregated to, a packet that
starts an aggregate has room in the buffer, and one that is added keeps to the configured size. -/
def Caller.Meets (port : Port) (c : Caller) : Event → Prop
  | .updateConfig size count => ∀ agg, c.state.aggSkb = some agg → 2 ≤ agg.packets.length →
      agg.used ≤ port.configured size.toNat ∧ agg.packets.length ≤ count.toNat
  | .attempt now _ built => ∀ pkt, c.current = some pkt → port.urgent pkt = false →
      match c.state.aggSkb with
      | none => c.state.bypasses port pkt now = false → built = true →
          pkt.len.toNat ≤ port.room c.state.aggSizeOrder
      | some agg => c.state.isFull port agg pkt now = false →
          agg.used + pkt.len.toNat ≤ c.state.params.aggSize
  | _ => True

def Caller.Along (port : Port) (condition : Caller → Event → Prop) (c : Caller) :
    List Event → Prop
  | [] => True
  | event :: events => ∀ c', c.step port event = some c' →
      condition c event ∧ Along port condition c' events

/-! ### What an attempt does -/

variable {port : Port} {s s' : State} {pkt : Packet} {now stamp : Int} {built : Bool}

/-- What a pass from `new_packet` comes to. -/
inductive Attempted (port : Port) (s : State) (pkt : Packet) (now : Int) (built : Bool)
    (s' : State) : Prop
  /-- There is no aggregate afterwards, and the call is over. -/
  | passed (aside : port.urgent pkt = true ∨ s.aggSkb = none ∧
        (s.bypasses port pkt now = true ∨ built = false))
      (free : s'.aggSkb = none) (over_with : ∀ p, s'.phase pkt.sender ≠ .retrying p)
  | overrun (waits : port.urgent pkt = false) (free : s.aggSkb = none)
      (stays : s.bypasses port pkt now = false) (memory : built = true)
      (large : port.room s.aggSizeOrder < pkt.len.toNat) (panics : s'.panicked = true)
  | first (waits : port.urgent pkt = false) (free : s.aggSkb = none)
      (fits : pkt.len.toNat ≤ port.room s.aggSizeOrder)
      (here : s'.aggSkb = some
        { packets := [pkt], tailroom := port.room s.aggSizeOrder - pkt.len.toNat })
      (counted : s'.aggCount = 1) (over_with : s'.phase pkt.sender = .idle)
  | full (waits : port.urgent pkt = false) (agg : AggSkb) (pending : s.aggSkb = some agg)
      (is_full : s.isFull port agg pkt now = true) (free : s'.aggSkb = none)
      (back : s'.phase pkt.sender = .retrying pkt)
  | added (waits : port.urgent pkt = false) (agg : AggSkb) (pending : s.aggSkb = some agg)
      (not_full : s.isFull port agg pkt now = false)
      (here : s'.aggSkb = some
        { packets := agg.packets ++ [pkt], tailroom := agg.tailroom - pkt.len.toNat })
      (counted : s'.aggCount = (s.aggCount + 1) % 256) (over_with : s'.phase pkt.sender = .idle)

@[simp] theorem takeAggSkb_params : s.takeAggSkb.params = s.params := by
  unfold State.takeAggSkb
  split <;> rfl

theorem txAggregate_params :
    (s.txAggregate port pkt.sender pkt now stamp built).params = s.params := by
  unfold State.txAggregate
  split
  · exact takeAggSkb_params
  split
  · split_ifs <;> first | rfl | rw [State.Inv.schedule_eq]; rfl
  · split_ifs
    · exact takeAggSkb_params
    · rw [State.Inv.schedule_eq]
      rfl

theorem txAggregate_attempted :
    Attempted port s pkt now built (s.txAggregate port pkt.sender pkt now stamp built) := by
  unfold State.txAggregate
  split
  · rename_i urgent
    refine .passed (.inl urgent) State.takeAggSkb_aggSkb fun p back => ?_
    rw [State.overtake, State.goto] at back
    simp only [update_self] at back
    split at back <;> cases back
  rename_i waits
  rw [Bool.not_eq_true] at waits
  split
  · rename_i free
    split_ifs with direct memory large
    · refine .passed (.inr ⟨free, .inl direct⟩) free fun p back => ?_
      simp [State.goto] at back
    · exact .overrun waits free (Bool.eq_false_of_not_eq_true direct) memory large rfl
    · rw [State.Inv.schedule_eq]
      refine .first waits free (Nat.not_lt.1 large) rfl rfl ?_
      simp [State.goto]
    · refine .passed (.inr ⟨free, .inr (Bool.eq_false_of_not_eq_true memory)⟩) free
        fun p back => ?_
      simp [State.goto] at back
  · rename_i agg pending
    split_ifs with full
    · refine .full waits agg pending full State.takeAggSkb_aggSkb ?_
      simp [State.goto]
    · rw [State.Inv.schedule_eq]
      refine .added waits agg pending (Bool.eq_false_of_not_eq_true full) rfl rfl ?_
      simp [State.goto]

namespace Caller

variable {c c' : Caller}

section Attempt

variable (c pkt now stamp built)

theorem attempt_fields :
    (c.attempt port pkt now stamp built).state.aggSkb =
        (c.state.txAggregate port pkt.sender pkt now stamp built).aggSkb ∧
      (c.attempt port pkt now stamp built).state.aggCount =
        (c.state.txAggregate port pkt.sender pkt now stamp built).aggCount ∧
      (c.attempt port pkt now stamp built).state.params = c.state.params ∧
      (c.attempt port pkt now stamp built).state.panicked =
        (c.state.txAggregate port pkt.sender pkt now stamp built).panicked := by
  rw [← @txAggregate_params port c.state pkt now stamp built]
  unfold attempt
  dsimp only
  split <;> exact ⟨rfl, rfl, rfl, rfl⟩

variable {c pkt now stamp built}

theorem attempt_back {p : Packet}
    (back : (c.state.txAggregate port pkt.sender pkt now stamp built).phase pkt.sender =
      .retrying p) :
    (c.attempt port pkt now stamp built).retries = c.retries + 1 := by
  unfold attempt
  dsimp only
  rw [back]

theorem attempt_done
    (done : ∀ p, (c.state.txAggregate port pkt.sender pkt now stamp built).phase pkt.sender ≠
      .retrying p) :
    (c.attempt port pkt now stamp built).retries = c.retries ∧
      (c.attempt port pkt now stamp built).current = none := by
  unfold attempt
  dsimp only
  split
  · rename_i p back
    exact absurd back (done p)
  · exact ⟨rfl, rfl⟩
  · exact ⟨rfl, rfl⟩
  · exact ⟨rfl, rfl⟩

end Attempt

structure Inv (c : Caller) : Prop where
  filled : ∀ agg, c.state.aggSkb = some agg → agg.packets ≠ []
  counted : ∀ agg, c.state.aggSkb = some agg → c.state.aggCount = agg.packets.length
  narrow : c.state.params.aggCount < 256
  tried : c.current.isSome → c.retries ≠ 0 → c.state.aggSkb = none

theorem Good.of_free (free : c.state.aggSkb = none) (alive : c.state.panicked = false)
    (retried : c.retries ≤ 1) : c.Good port where
  copied := alive
  fits _ here := nomatch free.symm.trans here
  size _ here := nomatch free.symm.trans here
  count _ here := nomatch free.symm.trans here
  retried := retried

theorem Inv.of_free (free : c.state.aggSkb = none) (narrow : c.state.params.aggCount < 256) :
    c.Inv where
  filled _ here := nomatch free.symm.trans here
  counted _ here := nomatch free.symm.trans here
  narrow := narrow
  tried _ _ := free

/-! An aggregate of one packet keeps to the bounds. -/

section First

variable {order : Nat}
  (here : c'.state.aggSkb =
    some { packets := [pkt], tailroom := port.room order - pkt.len.toNat })
include here

theorem first_good (fits : pkt.len.toNat ≤ port.room order)
    (alive : c'.state.panicked = false) (retried : c'.retries ≤ 1) : c'.Good port := by
  have one : ∀ agg, c'.state.aggSkb = some agg →
      agg = { packets := [pkt], tailroom := port.room order - pkt.len.toNat } :=
    fun agg pending => Option.some.inj (pending.symm.trans here)
  refine ⟨alive, fun agg pending => ?_, fun agg pending two => ?_, fun agg pending two => ?_,
    retried⟩
  · rw [one agg pending]
    refine ⟨order, ?_⟩
    simp only [AggSkb.used, List.map_cons, List.map_nil, List.sum_cons, List.sum_nil]
    omega
  · rw [one agg pending] at two
    exact absurd two (by decide : ¬2 ≤ 1)
  · rw [one agg pending] at two
    exact absurd two (by decide : ¬2 ≤ 1)

theorem first_inv (counted : c'.state.aggCount = 1) (narrow : c'.state.params.aggCount < 256)
    (done : c'.current = none) : c'.Inv := by
  refine ⟨fun agg pending => ?_, fun agg pending => ?_, narrow, fun busy => ?_⟩
  · cases here.symm.trans pending
    exact List.cons_ne_nil _ _
  · cases here.symm.trans pending
    exact counted
  · rw [done] at busy
    cases busy

end First

/-! A packet is added. -/

section Added

variable {agg : AggSkb} (inv : c.Inv) (pending : c.state.aggSkb = some agg)
  (few : c.state.aggCount < c.state.params.aggCount)
  (here : c'.state.aggSkb =
    some { packets := agg.packets ++ [pkt], tailroom := agg.tailroom - pkt.len.toNat })
  (params : c'.state.params = c.state.params)
include inv pending few here params

theorem added_good_iff (good : c.Good port) (fits : pkt.len.toNat ≤ agg.tailroom)
    (alive : c'.state.panicked = false) (retried : c'.retries ≤ 1) :
    c'.Good port ↔ agg.used + pkt.len.toNat ≤ c.state.params.aggSize := by
  have used : AggSkb.used ⟨agg.packets ++ [pkt], agg.tailroom - pkt.len.toNat⟩ =
      agg.used + pkt.len.toNat := by
    simp [AggSkb.used]
  have length := inv.counted agg pending
  have one : ∀ agg', c'.state.aggSkb = some agg' →
      agg' = ⟨agg.packets ++ [pkt], agg.tailroom - pkt.len.toNat⟩ :=
    fun agg' pending' => Option.some.inj (pending'.symm.trans here)
  refine ⟨fun good => ?_, fun small => ⟨alive, fun agg' pending' => ?_,
    fun agg' pending' _ => ?_, fun agg' pending' _ => ?_, retried⟩⟩
  · have some_before : 0 < agg.packets.length :=
      List.length_pos_of_ne_nil (inv.filled agg pending)
    have two : 2 ≤ (agg.packets ++ [pkt]).length := by
      rw [List.length_append, List.length_singleton]
      omega
    have small := good.size _ here two
    rwa [used, params] at small
  · obtain ⟨order, sum⟩ := good.fits agg pending
    rw [one agg' pending', used]
    refine ⟨order, ?_⟩
    dsimp only
    omega
  · rw [one agg' pending', used, params]
    exact small
  · rw [one agg' pending', params, List.length_append, List.length_singleton]
    omega

theorem added_inv (counted : c'.state.aggCount = (c.state.aggCount + 1) % 256)
    (done : c'.current = none) : c'.Inv := by
  have narrow := inv.narrow
  have length := inv.counted agg pending
  refine ⟨fun agg' pending' => ?_, fun agg' pending' => ?_, ?_, fun busy => ?_⟩
  · cases here.symm.trans pending'
    exact List.append_ne_nil_of_right_ne_nil _ (List.cons_ne_nil _ _)
  · cases here.symm.trans pending'
    rw [counted, List.length_append, List.length_singleton, ← length]
    omega
  · rwa [params]
  · rw [done] at busy
    cases busy

end Added

theorem attempt_good_iff (inv : c.Inv) (good : c.Good port) {pkt : Packet}
    (current : c.current = some pkt) (now stamp : Int) (built : Bool) :
    ((c.attempt port pkt now stamp built).Good port ↔
        c.Meets port (.attempt now stamp built)) ∧
      (c.Meets port (.attempt now stamp built) → (c.attempt port pkt now stamp built).Inv) := by
  obtain ⟨aggSkb, aggCount, params, panicked⟩ := @attempt_fields port pkt now stamp built c
  have sound : ¬c.state.Overruns port pkt now built →
      (c.attempt port pkt now stamp built).state.panicked = false := by
    rw [panicked, ← Bool.not_eq_true,
      @txAggregate_panicked_iff port c.state pkt.sender pkt now stamp built good.copied]
    exact id
  have narrow : (c.attempt port pkt now stamp built).state.params.aggCount < 256 := by
    rw [params]
    exact inv.narrow
  cases @txAggregate_attempted port c.state pkt now stamp built with
  | passed aside free done =>
    have fine := sound <| by
      rintro ⟨waits, -, stays, memory, -⟩
      rcases aside with urgent | ⟨-, bypasses | nomem⟩
      · exact absurd urgent (by simp [waits])
      · exact absurd bypasses (by simp [stays])
      · exact absurd nomem (by simp [memory])
    have meets : c.Meets port (.attempt now stamp built) := by
      intro pkt' current' waits
      cases current.symm.trans current'
      rcases aside with urgent | ⟨free, aside⟩
      · simp [waits] at urgent
      · rw [free]
        intro stays memory
        simp [stays, memory] at aside
    refine ⟨iff_of_true (.of_free (aggSkb.trans free) fine ?_) meets,
      fun _ => .of_free (aggSkb.trans free) narrow⟩
    rw [(attempt_done done).1]
    exact good.retried
  | overrun waits free stays memory large panics =>
    have meets : ¬c.Meets port (.attempt now stamp built) := by
      intro meets
      have fits := meets pkt current waits
      rw [free] at fits
      exact absurd (fits stays memory) (Nat.not_le.2 large)
    refine ⟨iff_of_false (fun good => ?_) meets, fun met => absurd met meets⟩
    exact absurd good.copied (by simp [panicked, panics])
  | first waits free fits here counted done =>
    have over_with := attempt_done fun p back => nomatch done.symm.trans back
    have fine := sound <| by
      rintro ⟨-, -, -, -, large⟩
      exact absurd fits (Nat.not_le.2 large)
    have meets : c.Meets port (.attempt now stamp built) := by
      intro pkt' current' _
      cases current.symm.trans current'
      rw [free]
      exact fun _ _ => fits
    refine ⟨iff_of_true (first_good (aggSkb.trans here) fits fine ?_) meets,
      fun _ => first_inv (aggSkb.trans here) (aggCount.trans counted) narrow over_with.2⟩
    rw [over_with.1]
    exact good.retried
  | full waits agg pending full free back =>
    have first : c.retries = 0 := by
      by_contra again
      exact nomatch pending.symm.trans (inv.tried (by rw [current]; rfl) again)
    have fine := sound <| by
      rintro ⟨-, none, -⟩
      exact nomatch pending.symm.trans none
    have meets : c.Meets port (.attempt now stamp built) := by
      intro pkt' current' _
      cases current.symm.trans current'
      rw [pending]
      exact fun room => absurd full (by simp [room])
    refine ⟨iff_of_true (.of_free (aggSkb.trans free) fine ?_) meets,
      fun _ => .of_free (aggSkb.trans free) narrow⟩
    rw [attempt_back back, first]
  | added waits agg pending room here counted done =>
    have over_with := attempt_done fun p back => nomatch done.symm.trans back
    have fine := sound <| by
      rintro ⟨-, none, -⟩
      exact nomatch pending.symm.trans none
    have admitted := room
    simp only [State.isFull, Bool.or_eq_false_iff, decide_eq_false_iff_not, Nat.not_lt,
      Nat.not_le, and_assoc] at admitted
    obtain ⟨fits, few, -⟩ := admitted
    have meets : c.Meets port (.attempt now stamp built) ↔
        agg.used + pkt.len.toNat ≤ c.state.params.aggSize := by
      constructor
      · intro meets
        have fits := meets pkt current waits
        rw [pending] at fits
        exact fits room
      · intro fits pkt' current' _
        cases current.symm.trans current'
        rw [pending]
        exact fun _ => fits
    rw [meets]
    refine ⟨added_good_iff inv pending few (aggSkb.trans here) params good fits fine ?_,
      fun _ => added_inv inv pending few (aggSkb.trans here) params (aggCount.trans counted)
        over_with.2⟩
    rw [over_with.1]
    exact good.retried

theorem updateUlAggConfig_aggSize (size count : Nat) :
    (s.updateUlAggConfig port size count).params =
      { aggSize := port.configured size, aggCount := count } := by
  unfold State.updateUlAggConfig Port.configured
  split <;> rfl

theorem updateUlAggConfig_fields (size count : Nat) :
    (s.updateUlAggConfig port size count).aggSkb = s.aggSkb ∧
      (s.updateUlAggConfig port size count).aggCount = s.aggCount ∧
      (s.updateUlAggConfig port size count).panicked = s.panicked := by
  unfold State.updateUlAggConfig
  split <;> exact ⟨rfl, rfl, rfl⟩

theorem flushTxPacketWork_cases (s : State) :
    s.flushTxPacketWork.params = s.params ∧ s.flushTxPacketWork.panicked = s.panicked ∧
      (s.flushTxPacketWork.aggSkb = none ∨
        s.flushTxPacketWork.aggSkb = s.aggSkb ∧ s.flushTxPacketWork.aggCount = s.aggCount) := by
  unfold State.flushTxPacketWork
  split
  · exact ⟨takeAggSkb_params, takeAggSkb_panicked, .inl State.takeAggSkb_aggSkb⟩
  · exact ⟨rfl, rfl, .inr ⟨rfl, rfl⟩⟩

theorem step_good_iff (inv : c.Inv) (good : c.Good port) {event : Event}
    (taken : c.step port event = some c') :
    (c'.Good port ↔ c.Meets port event) ∧ (c.Meets port event → c'.Inv) := by
  unfold step at taken
  rw [if_neg (by simp [good.copied])] at taken
  cases event with
  | updateConfig size count =>
    cases taken
    obtain ⟨aggSkb, aggCount, panicked⟩ :=
      @updateUlAggConfig_fields port c.state size.toNat count.toNat
    have params := @updateUlAggConfig_aggSize port c.state size.toNat count.toNat
    refine ⟨⟨fun good agg pending two => ?_, fun meets => ⟨panicked.trans good.copied,
      fun agg pending => ?_, fun agg pending two => ?_, fun agg pending two => ?_,
      good.retried⟩⟩, fun _ => ⟨fun agg pending => ?_, fun agg pending => ?_, ?_,
      fun busy again => ?_⟩⟩
    · have size := good.size agg (aggSkb.trans pending) two
      have count := good.count agg (aggSkb.trans pending) two
      rw [params] at size count
      exact ⟨size, count⟩
    · exact good.fits agg (aggSkb.symm.trans pending)
    · rw [params]
      exact (meets agg (aggSkb.symm.trans pending) two).1
    · rw [params]
      exact (meets agg (aggSkb.symm.trans pending) two).2
    · exact inv.filled agg (aggSkb.symm.trans pending)
    · exact aggCount.trans (inv.counted agg (aggSkb.symm.trans pending))
    · rw [params]
      exact count.isLt
    · exact aggSkb.trans (inv.tried busy again)
  | flush =>
    cases taken
    obtain ⟨params, panicked, free | ⟨aggSkb, aggCount⟩⟩ := flushTxPacketWork_cases c.state
    · refine ⟨iff_of_true (.of_free free (panicked.trans good.copied) good.retried) trivial,
        fun _ => .of_free free ?_⟩
      rw [params]
      exact inv.narrow
    · refine ⟨iff_of_true ⟨panicked.trans good.copied, ?_, ?_, ?_, good.retried⟩ trivial,
        fun _ => ⟨?_, ?_, ?_, ?_⟩⟩
      · rw [aggSkb]
        exact good.fits
      · rw [aggSkb, params]
        exact good.size
      · rw [aggSkb, params]
        exact good.count
      · rw [aggSkb]
        exact inv.filled
      · rw [aggSkb, aggCount]
        exact inv.counted
      · rw [params]
        exact inv.narrow
      · rw [aggSkb]
        exact inv.tried
  | call pkt =>
    dsimp only at taken
    split at taken
    · cases taken
    · cases taken
      exact ⟨iff_of_true ⟨good.copied, good.fits, good.size, good.count, Nat.zero_le 1⟩ trivial,
        fun _ => ⟨inv.filled, inv.counted, inv.narrow, fun _ again => absurd rfl again⟩⟩
  | attempt now stamp built =>
    dsimp only at taken
    obtain ⟨pkt, current, rfl⟩ := Option.map_eq_some_iff.1 taken
    exact attempt_good_iff inv good current now stamp built

theorem init_inv (port : Port) : (init port).Inv := by
  apply Inv.of_free rfl
  rw [init, updateUlAggConfig_aggSize]
  exact (by decide : 20 < 256)

theorem init_good (port : Port) : (init port).Good port :=
  .of_free rfl rfl (Nat.zero_le 1)

theorem trace_good_iff (inv : c.Inv) (good : c.Good port) (events : List Event) :
    (∀ c' ∈ c.trace port events, c'.Good port) ↔ c.Along port (Meets port) events := by
  induction events generalizing c with
  | nil => exact iff_of_true (fun c' here => List.mem_singleton.1 here ▸ good) trivial
  | cons event events ih =>
    unfold trace Along
    cases taken : c.step port event with
    | none =>
      exact iff_of_true (fun c' here => List.mem_singleton.1 here ▸ good)
        fun c' never => nomatch never
    | some next =>
      obtain ⟨good_iff, keeps⟩ := step_good_iff inv good taken
      have here : next ∈ next.trace port events := by
        cases events with
        | nil => exact List.mem_singleton_self _
        | cons event events => exact List.mem_cons_self
      constructor
      · rintro all c' same
        cases same
        have met := good_iff.1 (all next (List.mem_cons_of_mem _ here))
        refine ⟨met, (ih (keeps met) (good_iff.2 met)).1 fun c' later => ?_⟩
        exact all c' (List.mem_cons_of_mem _ later)
      · rintro along c' later
        obtain ⟨met, rest⟩ := along next rfl
        rcases List.mem_cons.1 later with rfl | later
        · exact good
        · exact (ih (keeps met) (good_iff.2 met)).2 rest c' later

/-- From the start on, the bounds are kept in exactly the runs whose steps meet the condition. -/
theorem aggregates_bounded_iff (port : Port) (events : List Event) :
    (∀ c ∈ (init port).trace port events, c.Good port) ↔
      (init port).Along port (Meets port) events :=
  trace_good_iff (init_inv port) (init_good port) events

/-- With the default configuration, a packet of 4000 bytes does not fit into the page that is
left, but is short enough for the configured size. -/
theorem default_overruns :
    ¬∀ (port : Port) (events : List Event), ∀ c ∈ (init port).trace port events,
      c.Good port := by
  intro all
  have panics : ((init cancelledPort).trace cancelledPort
      [.call { sender := 0, seq := 0, len := 4000 }, .attempt 1 1 true])[2]?.map
        (·.state.panicked) = some true := by
    decide +kernel
  obtain ⟨c, last, panicked⟩ := Option.map_eq_some_iff.1 panics
  have good := all cancelledPort _ c (List.mem_of_getElem? last)
  exact absurd good.copied (by simp [panicked])

end Caller

end VendorModules.TxAgg
