import VendorModules.CamSync.Signals

namespace VendorModules.CamSync

open Function Lib SyncTableRow

variable {s : State}

/-! Groups and their members, over all runs in which the steps find what they expect. -/

theorem length_le_of_nodup {l : List Nat} (nodup : l.Nodup) {n : Nat}
    (inside : ∀ a ∈ l, a < n) : l.length ≤ n := by
  have counts := length_le_mul_of_count_le inside (List.nodup_iff_count_le_one.mp nodup)
  rwa [Nat.mul_one] at counts

theorem registerCallback_forget {syncObj : Nat} {row row' : SyncTableRow}
    {info : SyncCallbackInfo} {deliveries : List Delivery}
    (answer : row.registerCallback syncObj info = .ok (row', deliveries)) :
    row'.forget = row.forget := by
  unfold registerCallback at answer
  split at answer
  · cases answer
  · split at answer <;> cases answer <;> rfl

theorem registerUserPayload_forget {syncObj : Nat} {row row' : SyncTableRow}
    {info : SyncUserPayload} {deliveries : List Delivery}
    (answer : row.registerUserPayload syncObj info = .ok (row', deliveries)) :
    row'.forget = row.forget := by
  unfold registerUserPayload at answer
  split at answer
  · cases answer
  · split at answer
    · cases answer
      rfl
    · split at answer <;> cases answer
      rfl

theorem deregisterCallback_forget {row row' : SyncTableRow} {callbackFunc cbData : Nat}
    (answer : row.deregisterCallback callbackFunc cbData = .ok row') :
    row'.forget = row.forget := by
  unfold deregisterCallback at answer
  split at answer
  · cases answer
  · split at answer <;> cases answer
    rfl

theorem deregisterUserPayload_forget {row row' : SyncTableRow} {payloadData : Nat × Nat}
    (answer : row.deregisterUserPayload payloadData = .ok row') :
    row'.forget = row.forget := by
  unfold deregisterUserPayload at answer
  split at answer <;> cases answer
  rfl

namespace State.Inv

variable (inv : s.Inv)

include inv

theorem signal {idx eventCause : Nat} {status : SyncState} (live : s.Live idx)
    (indv : (s.table idx).type = .indv) (active : (s.table idx).state = .active)
    (signals : status.Signaled) :
    (((s.accept idx status).finishSignal idx status eventCause).1.start
      (.visiting (s.history.ident idx) status eventCause
        ((s.accept idx status).finishSignal idx status eventCause).2)).Inv := by
  let obj := s.history.ident idx
  let between := (s.accept idx status).start (.signaling idx obj status eventCause)
  have here : between.running[s.running.length]? =
      some (.signaling idx obj status eventCause) := List.getElem?_concat_length
  have accepted : between.Inv := inv.accept live indv active signals
  have taken := accepted.finishSignal here fun _ => rfl
  have same : ∀ activity, between.running.set s.running.length activity =
      s.running ++ [activity] := fun activity => by
    simp only [between, State.start, State.accept, State.record, State.setRow]
    simp
  have whole : (between.finishSignal idx status eventCause).1.resume s.running.length
      (.visiting obj status eventCause (between.finishSignal idx status eventCause).2) =
      ((s.accept idx status).finishSignal idx status eventCause).1.start
        (.visiting obj status eventCause
          ((s.accept idx status).finishSignal idx status eventCause).2) := by
    simp only [State.resume, State.start]
    exact congrArg (fun running => State.mk _ _ _ running _) (same _)
  rwa [whole] at taken

theorem change {move : Move} {s' : State} (orderly : Orderly s move) (change : Change s move s') :
    s'.Inv := by
  cases change with
  | stay => exact inv
  | reserve free =>
    exact (inv.reserve free).start trivial (inv.reserved_of_free free)
      fun other running idx target => Option.some.inj target ▸
        inv.not_target_of_free free other running
  | check several nodup =>
    exact inv.start trivial ⟨several, nodup, fun idx member => .inl member⟩
      fun _ _ _ target => nomatch target
  | take here free =>
    obtain ⟨several, nodup, inside⟩ := inv.sound_of_get here
    have nonempty := List.ne_nil_of_length_pos (Nat.lt_of_succ_lt several)
    have bound := length_le_of_nodup nodup fun idx member =>
      (inside idx member).resolve_left List.not_mem_nil
    exact (inv.reserve free).claim here trivial trivial
      ⟨inv.reserved_of_free free, nonempty, bound⟩ rfl (inv.not_target_of_free free)
  | refs idx refCnt => exact inv.of_forget (forget_setRow rfl)
  | accept unlocked valid =>
    obtain ⟨active, indv, signals⟩ := signalValidate_ok valid
    exact inv.accept (by simp [State.Live, active]) indv active signals
  | signal unlocked valid =>
    obtain ⟨active, indv, signals⟩ := signalValidate_ok valid
    exact inv.signal (by simp [State.Live, active]) indv active signals
  | callback unlocked answer =>
    exact inv.of_forget ((forget_setRow (registerCallback_forget answer)).trans rfl)
  | callbackBack answer =>
    exact inv.of_forget ((forget_setRow (deregisterCallback_forget answer)).trans rfl)
  | payload unlocked answer =>
    exact inv.of_forget ((forget_setRow (registerUserPayload_forget answer)).trans rfl)
  | payloadBack answer =>
    exact inv.of_forget ((forget_setRow (deregisterUserPayload_forget answer)).trans rfl)
  | detach positive unlocked live =>
    rename_i idx
    refine (inv.detach live unlocked orderly).start trivial ⟨positive, inv.bit idx live, ?_⟩
      fun other running idx' target => ?_
    · simp [State.Live, State.setRow, SyncTableRow.detach]
    · exact Option.some.inj target ▸ inv.not_target live unlocked running
  | proceed here proceeds =>
    have sound := inv.sound_of_get here
    cases proceeds with
    | valid inside live =>
      refine inv.proceed here trivial trivial ⟨sound.1, sound.2.1, fun idx member => ?_⟩
        (.inl rfl)
      rcases sound.2.2 idx member with next | behind
      · rcases List.mem_cons.mp next with rfl | later
        · exact .inr inside
        · exact .inl later
      · exact .inr behind
    | refused => exact inv.proceed here trivial trivial trivial (.inr rfl)
    | noChild => exact inv.proceed here trivial trivial sound (.inl rfl)
    | noParent => exact inv.proceed here trivial trivial sound (.inl rfl)
  | create here =>
    rename_i k idx alloc synxObj
    have reserved : s.Reserved idx := inv.sound_of_get here
    let made := (s.resume k .returned).initRow idx .indv
    have kept : made.Inv := (inv.checkOut here trivial).initRow reserved
      (fun same => by cases same) (inv.apart here rfl)
    refine kept.of_forget ?_
    cases synxObj with
    | false => rfl
    | true =>
      exact show (made.setRow idx { made.table idx with synxObj := true }).forget =
        made.forget from forget_setRow rfl
  | lockGroup here =>
    rename_i k idx alloc syncObjs
    obtain ⟨reserved, nonempty, bound⟩ := inv.sound_of_get here
    have out := (inv.checkOut here trivial).lock idx
    have made : (State.initRow { s.resume k .returned with
        locked := update s.locked idx true } idx .group).Inv :=
      out.initRow reserved (fun _ => update_self ..) (inv.apart here rfl)
    have claimed := made.claim (get_resume here) trivial
      (show (Activity.merging idx [] syncObjs).Plain from trivial)
      { live := by simp [State.Live, State.initRow, SyncTableRow.initRow]
        group := by simp [State.initRow, SyncTableRow.initRow]
        locked := update_self ..
        members := by
          simp [State.initRow, State.resume, (inv.unborn s.history.next (Nat.le_refl _)).2.1]
        bound := by simpa using bound
        nonempty := by simpa using nonempty } rfl (inv.apart here rfl)
    refine claimed.of_forget ?_
    simp only [State.resume, State.initRow, State.lockGroup, List.set_set]
  | link here unlocked => exact inv.link here (orderly _ here)
  | finishGroup here => exact inv.finishGroup here
  | undo s' here => exact (inv.sound_of_get here).elim
  | finishSignal here => exact inv.finishSignal here (orderly _ here)
  | visit here unlocked => exact inv.visit here (orderly _ here)
  | unlinkChild here =>
    rename_i k idx child alloc children parents
    have reserved : s.Reserved idx := inv.sound_of_get here
    have states : ∀ i, (update s.table child ((s.table child).cleanupParentsList idx) i).state =
      (s.table i).state := update_field _ rfl
    refine (inv.cleanupParentsList reserved.2.2).proceed here trivial trivial
      ⟨reserved.1, reserved.2.1, ?_⟩ (.inl rfl)
    simpa only [State.Live, State.setRow, states] using reserved.2.2
  | unlinkParent here =>
    rename_i k idx alloc parent parents
    have reserved : s.Reserved idx := inv.sound_of_get here
    let row := (s.table parent.syncId).cleanupChildrenList idx
    have states : ∀ i, (update s.table parent.syncId row i).state = (s.table i).state :=
      update_field _ rfl
    have unseen : (s.setRow parent.syncId row).Inv := inv.of_forget (forget_setRow rfl)
    refine unseen.proceed here trivial trivial ⟨reserved.1, reserved.2.1, ?_⟩ (.inl rfl)
    simpa only [State.Live, State.setRow, states] using reserved.2.2
  | free here =>
    rename_i k idx alloc
    have reserved : s.Reserved idx := inv.sound_of_get here
    have apart := inv.apart here rfl
    have vanished : ((s.resume k .returned).setRow idx .zero).Inv :=
      (inv.checkOut here trivial).vanish rfl rfl apart fun parent held => by
        simp only [State.resume, inv.bare idx reserved.2.2] at held
        cases held
    have released := vanished.release
      (show ¬ State.Live _ idx by simp [State.Live, State.setRow, SyncTableRow.zero]) apart
    exact released.of_forget rfl

end State.Inv

theorem State.Inv.initial : State.initial.Inv where
  zero := fun live => live rfl
  bit := fun _ live => absurd rfl live
  placed := fun _ live => absurd rfl live
  bare := fun _ _ => rfl
  entries := fun _ _ held => nomatch held
  unborn := fun _ _ => ⟨rfl, rfl, rfl⟩
  born := fun _ _ held => nomatch held
  known := fun _ _ signaled => nomatch signaled
  indv := fun _ live => absurd rfl live
  group := fun _ live => absurd rfl live
  linked := fun _ live => absurd rfl live
  tally := fun _ live => absurd rfl live
  counted := fun _ live => absurd rfl live
  few := fun _ live => absurd rfl live
  blamed := fun _ live => absurd rfl live
  spared := fun _ live => absurd rfl live
  settled := fun _ live => absurd rfl live
  pausing := fun _ live => absurd rfl live
  sound := fun _ running => nomatch running
  targets := List.nodup_nil

theorem State.Inv.of_reachable
    (reached : Reachable (· = State.initial) (StepOf step Orderly) s) : s.Inv := by
  induction reached with
  | start initial => exact initial ▸ .initial
  | next _ taken ih =>
    obtain ⟨move, orderly, moved⟩ := taken
    exact ih.change orderly (change_of_step moved)

/-! ## What holds of an object -/

def State.Reporting (s : State) (group member : Nat) : Prop :=
  0 < s.visits group member ∨
    ∃ idx status eventCause, .signaling idx member status eventCause ∈ s.running

structure State.Tracked (s : State) (idx : Nat) : Prop where
  individual : (s.table idx).type = .indv → (s.table idx).state ≠ .active →
    s.history.signaled (s.history.ident idx) = some (s.table idx).state
  group : (s.table idx).type = .group → (s.table idx).state ≠ .active →
    ∃ member ∈ s.history.members (s.history.ident idx),
      s.history.signaled member = some (s.table idx).state
  counted : (s.table idx).remaining + (s.history.notified (s.history.ident idx)).length =
    (s.history.members (s.history.ident idx)).length
  /-- No visit finds the count at zero. -/
  room : ∀ member, 0 < s.visits (s.history.ident idx) member → 0 < (s.table idx).remaining
  /-- A group that waits does so for a member that is still there and has not been signaled,
  or for one whose signal is on its way. -/
  waits : (s.table idx).type = .group → s.locked idx = false →
    ((s.table idx).remaining ≠ 0 ∨ (s.table idx).state = .active) →
    ∃ member ∈ s.history.members (s.history.ident idx),
      (s.history.signaled member = none ∧ s.Lives member) ∨
        s.Reporting (s.history.ident idx) member

theorem State.Inv.tracked (inv : s.Inv) {idx : Nat} (live : s.Live idx) : s.Tracked idx := by
  have tally := inv.tally idx live
  have counted := inv.counted idx live
  refine
    { individual := fun indv ended => inv.signaled_of_ne_active live indv ended
      group := fun group ended => ?_
      counted := counted
      room := fun member under => ?_
      waits := fun group unlocked waits => ?_ }
  · obtain ⟨member, heard, blame⟩ := inv.blamed idx live group ended
    exact ⟨member, tally.mem_of_reported heard, blame⟩
  · have fewer := tally.length_lt (Nat.lt_of_lt_of_le under (Nat.le_add_right ..))
    omega
  · have pending : (s.table idx).remaining ≠ 0 := fun none =>
      waits.elim (· none) (inv.settled idx live group unlocked none)
    have missing : ¬ ∀ member ∈ s.history.members (s.history.ident idx),
        (s.history.signaled member).isSome ∧ s.flight (s.history.ident idx) member = 0 :=
      fun all => by
        have := tally.length_eq_iff.mpr all
        omega
    push Not at missing
    obtain ⟨member, belongs, late⟩ := missing
    refine ⟨member, belongs, ?_⟩
    -- a link that is still there leads from a live row
    have linkedLive : s.links (s.history.ident idx) member ≠ 0 →
        s.Lives member ∧ (s.table (s.history.rowOf member)).parentsList ≠ [] := by
      intro linked
      unfold State.links at linked
      split at linked
      · rename_i ident
        have held : (s.table (s.history.rowOf member)).parentsList ≠ [] := fun none => by
          rw [none] at linked
          exact linked rfl
        exact ⟨⟨Decidable.by_contra fun dead => held (inv.bare _ dead), ident⟩, held⟩
      · exact absurd rfl linked
    cases signaled : s.history.signaled member with
    | none =>
      have counts := inv.linked idx live member signaled
      have positive := List.count_pos_iff.mpr belongs
      exact .inl ⟨rfl, (linkedLive (by omega)).1⟩
    | some status =>
      have under := late (by simp [signaled])
      by_cases visits : 0 < s.visits (s.history.ident idx) member
      · exact .inr (.inl visits)
      · simp only [State.flight, signaled, Option.isSome_some, if_true] at under
        obtain ⟨⟨alive, ident⟩, held⟩ := linkedLive (by omega)
        obtain ⟨status', eventCause, running⟩ := inv.pausing _ alive
          (by rw [ident, signaled]; rfl) held
        rw [ident] at running
        exact .inr (.inr ⟨_, status', eventCause, running⟩)

/-- In every run in which no visit comes to a row that is used again, no merge fails half
way and no group loses a member it waits for, every object's account is in order. -/
theorem tracked_of_orderly (reached : Reachable (· = State.initial) (StepOf step Orderly) s)
    {idx : Nat} (live : s.Live idx) : s.Tracked idx :=
  (State.Inv.of_reachable reached).tracked live

abbrev mergeThenSignal : List Move :=
  [.create 1 false, .advance 0, .create 2 false, .advance 1,
    .merge [1, 2], .advance 2, .advance 2, .take 2 3, .advance 2, .advance 2, .advance 2,
    .advance 2, .getObjRef 1, .signal 1 2 0]

theorem mergeThenSignal_tracked :
    ∃ s, Reachable (· = State.initial) (StepOf step Orderly) s ∧ s.Live 3 ∧ s.Tracked 3 := by
  have start : Reachable (· = State.initial) (StepOf step Orderly) State.initial := .start rfl
  have reached := play_reachable start
    (show (play step Orderly State.initial mergeThenSignal).isSome by decide)
  have live : ((play step Orderly State.initial mergeThenSignal).get (by decide)).Live 3 := by
    decide
  exact ⟨_, reached, live, tracked_of_orderly reached live⟩

/-- While the signal of 1 has still to visit group 3, the group is destroyed and its row used
for an individual object. -/
abbrev visitAfterReuse : List Move :=
  mergeThenSignal ++ [.destroy 3, .advance 4, .advance 4, .advance 4, .create 3 false,
    .advance 5, .advance 3]

/-- The new object has never been signaled, is not active, and waits for 2^32 - 1 members. -/
theorem visitAfterReuse_not_tracked :
    ∃ s, Reachable (· = State.initial) (StepOf step fun _ _ => True) s ∧ s.Live 3 ∧
      (s.table 3).type = .indv ∧ s.history.signaled (s.history.ident 3) = none ∧
      (s.table 3).state = .signaledSuccess ∧ (s.table 3).remaining = 2 ^ 32 - 1 ∧
      ¬ s.Tracked 3 := by
  have start : Reachable (· = State.initial) (StepOf step fun _ _ => True) State.initial :=
    .start rfl
  have reached := play_reachable start
    (show (play step (fun _ _ => True) State.initial visitAfterReuse).isSome by decide)
  refine ⟨_, reached, by decide, by decide, by decide, by decide, by decide, fun tracked => ?_⟩
  exact absurd (tracked.individual (by decide) (by decide)) (by decide)

abbrev memberDestroyed : List Move :=
  mergeThenSignal ++ [.advance 3, .destroy 2, .advance 4, .advance 4]

theorem memberDestroyed_not_tracked :
    ∃ s, Reachable (· = State.initial) (StepOf step fun _ _ => True) s ∧ s.Live 3 ∧
      (s.table 3).remaining = 1 ∧ ¬ s.Lives 1 ∧ ¬ s.Tracked 3 := by
  have start : Reachable (· = State.initial) (StepOf step fun _ _ => True) State.initial :=
    .start rfl
  have reached := play_reachable start
    (show (play step (fun _ _ => True) State.initial memberDestroyed).isSome by decide)
  refine ⟨_, reached, by decide, by decide, by decide, fun tracked => ?_⟩
  have quiet : ((play step (fun _ _ => True) State.initial memberDestroyed).get
      (by decide)).running = [.returned, .returned, .returned,
        .visiting 0 .signaledSuccess 0 [], .returned] := by decide
  obtain ⟨member, belongs, late⟩ := tracked.waits (by decide) (by decide) (.inl (by decide))
  rcases late with ⟨pending, lives⟩ | visits | ⟨idx, status, eventCause, running⟩
  · have members : member = 0 ∨ member = 1 := by simpa using show member ∈ [0, 1] from belongs
    rcases members with rfl | rfl
    · exact absurd pending (by decide)
    · exact absurd lives (by decide)
  · rw [State.visits, quiet] at visits
    simp [Activity.visits] at visits
  · rw [quiet] at running
    simp at running

end VendorModules.CamSync
