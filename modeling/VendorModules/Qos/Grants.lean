import VendorModules.Qos.Opened

namespace VendorModules.Qos

open Lib

variable {dev : Device} {qos qos' : QosInfo} {world world' : World} {p : Nat} {bearer : Bearer}
  {flows : List FlowMap} {newMap : FlowMap}

/-! What the sections do to one bearer, while the others go on as they are. -/

def RunsAt (dev : Device) (qos : QosInfo) (p : Nat) : Prop :=
  ∀ i < maxMqNum, i < dev.numTxQueues → (qos.mq i).bearer = some p → ∀ bearer,
    qos.bearers p = some bearer → (qos.running i = true ↔ bearer.grantSize ≠ 0)

def QuietAt (qos : QosInfo) (p : Nat) : Prop :=
  ∀ bearer, qos.bearers p = some bearer → bearer.txOff = true → bearer.grantSize = 0

structure ServingBut (dev : Device) (qos : QosInfo) (flows : List FlowMap) (p : Nat) : Prop where
  routed : Routed dev qos flows
  runs : ∀ p', p' ≠ p → RunsAt dev qos p'
  quiet : ∀ p' ∈ qos.bearerHead, p' ≠ p → QuietAt qos p'

/-- The queue that the bearer thinks it has is its own, or runs for another bearer with a grant. -/
def Harmless (dev : Device) (qos : QosInfo) (p : Nat) : Prop :=
  ∀ bearer, qos.bearers p = some bearer → bearer.mqIdx < maxMqNum →
    bearer.mqIdx < dev.numTxQueues → ∀ p', p' ≠ p → (qos.mq bearer.mqIdx).bearer = some p' →
      bearer.grantSize ≠ 0 ∧ ∀ bearer', qos.bearers p' = some bearer' → bearer'.grantSize ≠ 0

theorem Routed.harmless (routed : Routed dev qos flows) (there : p ∈ qos.bearerHead) :
    Harmless dev qos p := by
  intro bearer found inside queue p' differs his
  rw [routed.placed p there bearer found inside] at his
  exact absurd (Option.some.inj his).symm differs

theorem bearerFlowCtl_some (controlled : qos.bearerFlowCtl dev p = some qos') :
    ∃ bearer running, qos.bearers p = some bearer ∧ qos' = { qos with running } ∧
      (maxMqNum ≤ bearer.ackMqIdx → ∀ j < maxMqNum, running j =
        if j < dev.numTxQueues ∧ j = bearer.mqIdx then bearer.grantSize != 0
          else qos.running j) := by
  obtain ⟨bearer, found, controlled⟩ := Option.bind_eq_some_iff.mp controlled
  have acked : ∃ running, (if bearer.ackMqIdx = invalidMq then qos
      else qos.flowControl dev bearer.ackMqIdx (bearer.grantSize != 0 || bearer.tcpBidir)) =
        { qos with running } ∧
      (maxMqNum ≤ bearer.ackMqIdx → ∀ j < maxMqNum, running j = qos.running j) := by
    split
    · exact ⟨qos.running, rfl, fun _ _ _ => rfl⟩
    · obtain ⟨running, flowed⟩ := flowControl_eq dev qos bearer.ackMqIdx
        (bearer.grantSize != 0 || bearer.tcpBidir)
      refine ⟨running, flowed, fun beyond j inside => ?_⟩
      have read := running_flowControl dev qos bearer.ackMqIdx
        (bearer.grantSize != 0 || bearer.tcpBidir) j
      rw [flowed, if_neg (by omega)] at read
      exact read
  obtain ⟨running, acked, kept⟩ := acked
  dsimp only at controlled
  rw [acked] at controlled
  obtain ⟨running', flowed⟩ := flowControl_eq dev { qos with running }
    bearer.mqIdx (bearer.grantSize != 0)
  refine ⟨bearer, running', found, (Option.some.inj controlled).symm.trans flowed, ?_⟩
  intro beyond j inside
  have read := running_flowControl dev { qos with running } bearer.mqIdx
    (bearer.grantSize != 0) j
  rw [flowed] at read
  rw [← kept beyond j inside]
  exact read

theorem Serving.but (serving : Serving dev qos flows) (p : Nat) : ServingBut dev qos flows p where
  routed := serving.routed
  runs := fun p' _ i inside queue his => serving.runs i inside queue p' his
  quiet := fun p' there _ => serving.quiet p' there

namespace ServingBut

theorem whole (but : ServingBut dev qos flows p) (runs : RunsAt dev qos p)
    (quiet : p ∈ qos.bearerHead → QuietAt qos p) : Serving dev qos flows where
  routed := but.routed
  runs := by
    intro i inside queue p' his
    by_cases same : p' = p
    · subst same
      exact runs i inside queue his
    · exact but.runs p' same i inside queue his
  quiet := by
    intro p' there
    by_cases same : p' = p
    · subst same
      exact quiet there
    · exact but.quiet p' there same

theorem modify (but : ServingBut dev qos flows p) {change : Bearer → Bearer}
    (changed : qos.modify p change = some qos')
    (ties : ∀ bearer, qos.bearers p = some bearer → (change bearer).ties = bearer.ties) :
    ServingBut dev qos' flows p := by
  have routed := but.routed.of_shape (SameShape.of_modify changed ties)
  obtain ⟨bearer, found, rfl⟩ := modify_some changed
  refine ⟨routed, ?_, ?_⟩
  · intro p' differs i inside queue his bearer' found'
    simp only [Function.update_of_ne differs] at found'
    exact but.runs p' differs i inside queue his bearer' found'
  · intro p' there differs bearer' found'
    simp only [Function.update_of_ne differs] at found'
    exact but.quiet p' there differs bearer' found'

theorem control (but : ServingBut dev qos flows p) (harmless : Harmless dev qos p)
    (controlled : qos.bearerFlowCtl dev p = some qos') :
    ServingBut dev qos' flows p ∧ RunsAt dev qos' p := by
  obtain ⟨bearer, running, found, rfl, flowed⟩ := bearerFlowCtl_some controlled
  have flowed := flowed (but.routed.acks p bearer found)
  constructor
  · refine ⟨{ but.routed with }, ?_, but.quiet⟩
    intro p' differs i inside queue his bearer' found'
    have kept := but.runs p' differs i inside queue his bearer' found'
    simp only [flowed i inside]
    split
    · rename_i here
      obtain ⟨-, rfl⟩ := here
      obtain ⟨granted, granted'⟩ := harmless bearer found inside queue p' differs his
      have known := granted' bearer' found'
      rw [bne_iff_ne]
      exact ⟨fun _ => known, fun _ => granted⟩
    · exact kept
  · intro i inside queue his bearer' found'
    dsimp only at found' his
    rw [found] at found'
    cases found'
    simp only [flowed i inside, if_pos (⟨queue, (but.routed.idx i inside p his bearer found).symm⟩ :
      i < dev.numTxQueues ∧ i = bearer.mqIdx)]
    simp

end ServingBut

theorem RunsAt.modify (runs : RunsAt dev qos p) {change : Bearer → Bearer}
    (changed : qos.modify p change = some qos')
    (grants : ∀ bearer, qos.bearers p = some bearer →
      ((change bearer).grantSize = 0 ↔ bearer.grantSize = 0)) : RunsAt dev qos' p := by
  obtain ⟨bearer, found, rfl⟩ := modify_some changed
  intro i inside queue his bearer' found'
  simp only [Function.update_self, Option.some.injEq] at found'
  rw [← found', Ne, grants bearer found]
  exact runs i inside queue his bearer found

theorem Serving.runsAt (serving : Serving dev qos flows) (p : Nat) : RunsAt dev qos p :=
  fun i inside queue his => serving.runs i inside queue p his

theorem modify_found {change : Bearer → Bearer} (found : qos.bearers p = some bearer)
    (changed : qos.modify p change = some qos') : qos'.bearers p = some (change bearer) := by
  obtain ⟨bearer', found', rfl⟩ := modify_some changed
  rw [found] at found'
  cases found'
  exact Function.update_self ..

theorem control_found (found : qos.bearers p = some bearer)
    (controlled : qos.bearerFlowCtl dev p = some qos') : qos'.bearers p = some bearer := by
  obtain ⟨_, running, _, rfl, -⟩ := bearerFlowCtl_some controlled
  exact found

theorem modify_bearerHead {change : Bearer → Bearer} (changed : qos.modify p change = some qos') :
    qos'.bearerHead = qos.bearerHead := by
  obtain ⟨_, _, rfl⟩ := modify_some changed
  rfl

theorem control_bearerHead (controlled : qos.bearerFlowCtl dev p = some qos') :
    qos'.bearerHead = qos.bearerHead := by
  obtain ⟨_, _, _, rfl, -⟩ := bearerFlowCtl_some controlled
  rfl

namespace Serving

theorem regrant (serving : Serving dev qos flows) {change : Bearer → Bearer}
    (found : qos.bearers p = some bearer) (changed : qos.modify p change = some qos')
    (ties : (change bearer).ties = bearer.ties)
    (grants : (change bearer).grantSize = 0 ↔ bearer.grantSize = 0)
    (quiet : p ∈ qos.bearerHead → (change bearer).txOff = true → (change bearer).grantSize = 0) :
    Serving dev qos' flows := by
  have only {bearer' : Bearer} (found' : qos.bearers p = some bearer') : bearer' = bearer := by
    rw [found] at found'
    exact (Option.some.inj found').symm
  apply ServingBut.whole (p := p)
  · exact (serving.but p).modify changed fun bearer' found' => by rwa [only found']
  · exact (serving.runsAt p).modify changed fun bearer' found' => by rwa [only found']
  · intro there bearer' found'
    rw [modify_found found changed] at found'
    cases found'
    rw [modify_bearerHead changed] at there
    exact quiet there

theorem touch (serving : Serving dev qos flows) {change : Bearer → Bearer} {touched : QosInfo}
    (there : p ∈ qos.bearerHead)
    (found : qos.bearers p = some bearer) (changed : qos.modify p change = some touched)
    (controlled : touched.bearerFlowCtl dev p = some qos')
    (ties : (change bearer).ties = bearer.ties)
    (quiet : (change bearer).txOff = true → (change bearer).grantSize = 0) :
    Serving dev qos' flows := by
  have but : ServingBut dev touched flows p := (serving.but p).modify changed
    fun bearer' found' => by
      rw [found] at found'
      cases found'
      exact ties
  have there' : p ∈ touched.bearerHead := by rwa [modify_bearerHead changed]
  obtain ⟨but', runs⟩ := but.control (but.routed.harmless there') controlled
  apply but'.whole runs
  intro _ bearer' found'
  rw [control_found (modify_found found changed) controlled] at found'
  cases found'
  exact quiet

/-! ### Indications -/

theorem of_allBearerFlowCtl {info : FlowStatus} {ancillary : Ancillary} {ps : List Nat}
    (serving : Serving dev qos flows) (listed : ∀ p ∈ ps, p ∈ qos.bearerHead)
    (on : info.numBytes ≠ 0 → ∀ p ∈ qos.bearerHead, ∀ bearer, qos.bearers p = some bearer →
      bearer.txOff = false)
    (done : QosInfo.allBearerFlowCtl dev info ancillary ps qos = some qos') :
    Serving dev qos' flows := by
  induction ps generalizing qos with
  | nil =>
    cases done
    exact serving
  | cons p rest ih =>
    obtain ⟨granted, changed, done⟩ := Option.bind_eq_some_iff.mp done
    obtain ⟨controlled, flowed, done⟩ := Option.bind_eq_some_iff.mp done
    obtain ⟨bearer, found, -⟩ := modify_some changed
    have there := listed p List.mem_cons_self
    have head : controlled.bearerHead = qos.bearerHead :=
      (control_bearerHead flowed).trans (modify_bearerHead changed)
    apply ih _ _ _ done
    · apply serving.touch there found changed flowed rfl
      intro off
      by_contra some_bytes
      rw [on some_bytes p there bearer found] at off
      cases off
    · intro p' member
      rw [head]
      exact listed p' (List.mem_cons_of_mem _ member)
    · intro some_bytes p' there' bearer' found'
      rw [head] at there'
      obtain ⟨_, running, _, rfl, -⟩ := bearerFlowCtl_some flowed
      obtain ⟨before, was, rfl⟩ := modify_some changed
      rcases setBearer_read found' with ⟨rfl, rfl⟩ | ⟨_, found'⟩
      · exact on some_bytes p' there' before was
      · exact on some_bytes p' there' bearer' found'

theorem of_markLowLatency (serving : Serving dev qos flows) (info : FlowStatus) (itm : Bearer) :
    Serving dev (qos.markLowLatency info itm) flows := by
  have shape : SameShape qos (qos.markLowLatency info itm) := SameShape.of_markLowLatency info itm
  have bearers : (qos.markLowLatency info itm).bearers = qos.bearers := by
    unfold QosInfo.markLowLatency
    split <;> rfl
  have running : (qos.markLowLatency info itm).running = qos.running := by
    unfold QosInfo.markLowLatency
    split <;> rfl
  refine ⟨serving.routed.of_shape shape, ?_, ?_⟩
  · intro i inside queue p his
    rw [shape.mq] at his
    rw [bearers, running]
    exact serving.runs i inside queue p his
  · intro p there
    rw [shape.bearerHead] at there
    rw [bearers]
    exact serving.quiet p there

end Serving

namespace Bearer

theorem grantSize_noteRatSwitch (info : FlowStatus) (ancillary : Ancillary) :
    (bearer.noteRatSwitch info ancillary).grantSize = bearer.grantSize := by
  unfold noteRatSwitch
  split <;> rfl

theorem txOff_noteRatSwitch (info : FlowStatus) (ancillary : Ancillary) :
    (bearer.noteRatSwitch info ancillary).txOff = bearer.txOff := by
  unfold noteRatSwitch
  split <;> rfl

theorem grantSize_switchLowLatency (info : FlowStatus) :
    (bearer.switchLowLatency info).grantSize = bearer.grantSize := by
  unfold switchLowLatency
  split <;> rfl

theorem txOff_switchLowLatency (info : FlowStatus) :
    (bearer.switchLowLatency info).txOff = bearer.txOff := by
  unfold switchLowLatency
  split <;> rfl

theorem grantSize_offered (info : FlowStatus) (isQuery : Bool) :
    (bearer.offered dev info isQuery).2.grantSize = bearer.grantSize := by
  unfold offered adjustGrant
  split
  · split <;> rfl
  · rfl

theorem txOff_offered (info : FlowStatus) (isQuery : Bool) :
    (bearer.offered dev info isQuery).2.txOff = bearer.txOff := by
  unfold offered adjustGrant
  split
  · split <;> rfl
  · rfl

theorem offered_zero {info : FlowStatus} (none_granted : info.numBytes = 0) (isQuery : Bool) :
    (bearer.offered dev info isQuery).1 = 0 := by
  unfold offered adjustGrant
  split
  · split
    · exact none_granted
    · simp only [none_granted]
      exact if_neg (by simp)
  · exact none_granted

theorem grantSize_watchdogAdd : bearer.watchdogAdd.grantSize = bearer.grantSize := by
  unfold watchdogAdd
  dsimp only
  split <;> rfl

theorem grantSize_watchdogRemove : bearer.watchdogRemove.grantSize = bearer.grantSize := by
  unfold watchdogRemove
  dsimp only
  split <;> rfl

theorem txOff_watchdogAdd : bearer.watchdogAdd.txOff = bearer.txOff := by
  unfold watchdogAdd
  dsimp only
  split <;> rfl

theorem txOff_watchdogRemove : bearer.watchdogRemove.txOff = bearer.txOff := by
  unfold watchdogRemove
  dsimp only
  split <;> rfl

theorem grantSize_granted (info : FlowStatus) (ancillary : Ancillary) (isQuery : Bool)
    (adjusted : BitVec 32) :
    (bearer.granted dev info ancillary isQuery adjusted).grantSize = adjusted := by
  unfold granted
  dsimp only
  split
  · exact grantSize_watchdogAdd
  · exact grantSize_watchdogRemove

theorem txOff_granted (info : FlowStatus) (ancillary : Ancillary) (isQuery : Bool)
    (adjusted : BitVec 32) :
    (bearer.granted dev info ancillary isQuery adjusted).txOff = bearer.txOff := by
  unfold granted
  dsimp only
  split
  · exact txOff_watchdogAdd
  · exact txOff_watchdogRemove

theorem grant_of_not_needsAction {ancillary : Ancillary} {adjusted : BitVec 32}
    (idle : ¬ bearer.needsAction ancillary adjusted = true) :
    adjusted = 0 ↔ bearer.grantSize = 0 := by
  simp only [needsAction, Bool.or_eq_true, Bool.and_eq_true, beq_iff_eq, decide_eq_true_eq,
    not_or, not_and] at idle
  obtain ⟨⟨came, went⟩, -⟩ := idle
  constructor
  · intro none_left
    by_contra had
    exact went ((BitVec.pos_iff_ne_zero _).mpr had) none_left
  · intro none_had
    by_contra comes
    exact came none_had ((BitVec.pos_iff_ne_zero _).mpr comes)

end Bearer

namespace Serving

theorem of_updateGrant (serving : Serving dev qos flows) {info : FlowStatus}
    {ancillary : Ancillary} {isQuery : Bool} (there : p ∈ qos.bearerHead)
    (done : qos.updateGrant dev p info ancillary isQuery = some qos') :
    Serving dev qos' flows := by
  obtain ⟨itm, found, done⟩ := Option.bind_eq_some_iff.mp done
  split at done
  · cases done
    exact serving
  · dsimp only at done
    split at done
    · apply serving.regrant found done
      · exact SameShape.ties_noteRatSwitch itm info ancillary
      · rw [Bearer.grantSize_noteRatSwitch]
      · intro _ off
        rw [Bearer.txOff_noteRatSwitch] at off
        rw [Bearer.grantSize_noteRatSwitch]
        exact serving.quiet p there itm found off
    · rename_i heard
      obtain ⟨granted, changed, done⟩ := Option.bind_eq_some_iff.mp done
      have marked := serving.of_markLowLatency info (itm.noteRatSwitch info ancillary)
      have shape : SameShape qos (qos.markLowLatency info (itm.noteRatSwitch info ancillary)) :=
        SameShape.of_markLowLatency _ _
      have found' : (qos.markLowLatency info (itm.noteRatSwitch info ancillary)).bearers p =
          some itm := by
        unfold QosInfo.markLowLatency
        split <;> exact found
      have ties : (((itm.noteRatSwitch info ancillary).switchLowLatency info).offered dev info
          isQuery).2.ties = itm.ties := by
        rw [SameShape.ties_offered, SameShape.ties_switchLowLatency,
          SameShape.ties_noteRatSwitch]
      have quiet : itm.txOff = true → (((itm.noteRatSwitch info ancillary).switchLowLatency
          info).offered dev info isQuery).1 = 0 := by
        intro off
        apply Bearer.offered_zero
        rw [Bearer.txOff_noteRatSwitch, off] at heard
        by_contra some_bytes
        exact heard (by simpa using (BitVec.pos_iff_ne_zero _).mpr some_bytes)
      have there' : p ∈
          (qos.markLowLatency info (itm.noteRatSwitch info ancillary)).bearerHead := by
        rwa [shape.bearerHead]
      split at done
      · apply marked.touch there' found' changed done
        · rw [SameShape.ties_granted, ties]
        · intro off
          rw [Bearer.txOff_granted, Bearer.txOff_offered, Bearer.txOff_switchLowLatency,
            Bearer.txOff_noteRatSwitch] at off
          rw [Bearer.grantSize_granted]
          exact quiet off
      · rename_i idle
        cases done
        apply marked.regrant found' changed
        · rw [SameShape.ties_granted, ties]
        · rw [Bearer.grantSize_granted, Bearer.grant_of_not_needsAction idle,
            Bearer.grantSize_offered, Bearer.grantSize_switchLowLatency,
            Bearer.grantSize_noteRatSwitch]
        · intro _ off
          rw [Bearer.txOff_granted, Bearer.txOff_offered, Bearer.txOff_switchLowLatency,
            Bearer.txOff_noteRatSwitch] at off
          rw [Bearer.grantSize_granted]
          exact quiet off

end Serving

end VendorModules.Qos
