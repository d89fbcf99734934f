import VendorModules.Qos.Handlers

namespace VendorModules.Qos

/-! What the handlers of indications, packets and timers leave alone: the lists, the pointers
between them and the queues that the bearers have. -/

structure Ties where
  bearerId : BitVec 8
  flowRef : Int
  mqIdx : Nat
  ackMqIdx : Nat

def Bearer.ties (bearer : Bearer) : Ties where
  bearerId := bearer.bearerId
  flowRef := bearer.flowRef
  mqIdx := bearer.mqIdx
  ackMqIdx := bearer.ackMqIdx

structure SameShape (qos qos' : QosInfo) : Prop where
  bearerHead : qos'.bearerHead = qos.bearerHead
  flowHead : qos'.flowHead = qos.flowHead
  fresh : qos'.fresh = qos.fresh
  removedBearer : qos'.removedBearer = qos.removedBearer
  mq : ∀ i, (qos'.mq i).bearer = (qos.mq i).bearer
  bearers : ∀ p, (qos'.bearers p).map Bearer.ties = (qos.bearers p).map Bearer.ties

namespace SameShape

variable {qos qos' qos'' : QosInfo} {p : Nat} {dev : Device}

theorem refl (qos : QosInfo) : SameShape qos qos where
  bearerHead := rfl
  flowHead := rfl
  fresh := rfl
  removedBearer := rfl
  mq := fun _ => rfl
  bearers := fun _ => rfl

theorem trans (first : SameShape qos qos') (second : SameShape qos' qos'') :
    SameShape qos qos'' where
  bearerHead := second.bearerHead.trans first.bearerHead
  flowHead := second.flowHead.trans first.flowHead
  fresh := second.fresh.trans first.fresh
  removedBearer := second.removedBearer.trans first.removedBearer
  mq := fun i => (second.mq i).trans (first.mq i)
  bearers := fun p => (second.bearers p).trans (first.bearers p)

theorem bearer_of (same : SameShape qos qos') {bearer : Bearer} (found : qos.bearers p = some bearer) :
    ∃ bearer', qos'.bearers p = some bearer' ∧ bearer'.ties = bearer.ties := by
  have tied := same.bearers p
  rw [found, Option.map_some, Option.map_eq_some_iff] at tied
  exact tied

theorem of_flowControl (mqIdx : Nat) (enable : Bool) :
    SameShape qos (qos.flowControl dev mqIdx enable) := by
  unfold QosInfo.flowControl
  split
  · exact refl qos
  · exact { refl qos with }

theorem of_modify {change : Bearer → Bearer} (changed : qos.modify p change = some qos')
    (keeps : ∀ bearer, qos.bearers p = some bearer → (change bearer).ties = bearer.ties) :
    SameShape qos qos' := by
  obtain ⟨bearer, found, changed⟩ := Option.bind_eq_some_iff.mp changed
  cases changed
  refine { refl qos with bearers := fun other => ?_ }
  by_cases same : other = p
  · subst same
    simp [found, keeps bearer found]
  · simp [Function.update_of_ne same]

theorem of_bearerFlowCtl (controlled : qos.bearerFlowCtl dev p = some qos') :
    SameShape qos qos' := by
  obtain ⟨bearer, _, controlled⟩ := Option.bind_eq_some_iff.mp controlled
  cases controlled
  refine trans ?_ (of_flowControl bearer.mqIdx (bearer.grantSize != 0))
  split
  · exact refl qos
  · exact of_flowControl _ _

@[simp] theorem ties_watchdogAdd (bearer : Bearer) : bearer.watchdogAdd.ties = bearer.ties := by
  unfold Bearer.watchdogAdd
  dsimp only
  split <;> rfl

@[simp] theorem ties_watchdogRemove (bearer : Bearer) :
    bearer.watchdogRemove.ties = bearer.ties := by
  unfold Bearer.watchdogRemove
  dsimp only
  split <;> rfl

theorem ties_resetBearer (bearer : Bearer) :
    (QosInfo.resetBearer bearer).ties = bearer.ties := by
  rw [QosInfo.resetBearer, ties_watchdogRemove]
  rfl

theorem of_allBearerFlowCtl {info : FlowStatus} {ancillary : Ancillary} {ps : List Nat}
    (done : QosInfo.allBearerFlowCtl dev info ancillary ps qos = some qos') :
    SameShape qos qos' := by
  induction ps generalizing qos with
  | nil =>
    cases done
    exact refl _
  | cons p rest ih =>
    obtain ⟨granted, changed, done⟩ := Option.bind_eq_some_iff.mp done
    obtain ⟨controlled, flowed, done⟩ := Option.bind_eq_some_iff.mp done
    have first := of_modify changed fun _ _ => rfl
    exact (first.trans (of_bearerFlowCtl flowed)).trans (ih done)

theorem of_enableAllFlows {ps : List Nat}
    (done : QosInfo.enableAllFlows dev ps qos = some qos') : SameShape qos qos' := by
  induction ps generalizing qos with
  | nil =>
    cases done
    exact refl _
  | cons p rest ih =>
    obtain ⟨reset, changed, done⟩ := Option.bind_eq_some_iff.mp done
    obtain ⟨bearer, _, done⟩ := Option.bind_eq_some_iff.mp done
    have first : SameShape qos reset :=
      of_modify changed fun bearer _ => ties_resetBearer bearer
    split at done
    · exact first.trans (ih done)
    · obtain ⟨granted, changed, done⟩ := Option.bind_eq_some_iff.mp done
      obtain ⟨woken, wake, done⟩ := Option.bind_eq_some_iff.mp done
      have second := first.trans (of_modify changed fun _ _ => rfl)
      split at wake
      · exact (second.trans (of_bearerFlowCtl wake)).trans (ih done)
      · cases wake
        exact second.trans (ih done)

theorem of_preparePsBearers {ps : List Nat}
    (done : QosInfo.preparePsBearers ps qos = some qos') : SameShape qos qos' := by
  induction ps generalizing qos with
  | nil =>
    cases done
    exact refl _
  | cons p rest ih =>
    obtain ⟨bearer, _, done⟩ := Option.bind_eq_some_iff.mp done
    obtain ⟨reset, changed, done⟩ := Option.bind_eq_some_iff.mp done
    split at changed
    · have first : SameShape qos reset :=
        of_modify changed fun bearer _ => ties_resetBearer bearer
      exact first.trans (ih done)
    · cases changed
      exact ih done

theorem of_updateTxLinkStatus {txStatus : Bool} {bearerId : BitVec 8}
    (done : qos.updateTxLinkStatus dev txStatus bearerId = some qos') : SameShape qos qos' := by
  obtain ⟨found, _, done⟩ := Option.bind_eq_some_iff.mp done
  cases found with
  | none =>
    cases done
    exact refl _
  | some p =>
    obtain ⟨itm, _, done⟩ := Option.bind_eq_some_iff.mp done
    split at done
    · cases done
      exact refl _
    · obtain ⟨switched, moved, done⟩ := Option.bind_eq_some_iff.mp done
      apply trans _ (of_modify done fun _ _ => rfl)
      split at moved
      · obtain ⟨stopped, changed, moved⟩ := Option.bind_eq_some_iff.mp moved
        exact (of_modify changed fun _ _ => ties_watchdogRemove _).trans
          (of_bearerFlowCtl moved)
      · split at moved
        · obtain ⟨granted, changed, moved⟩ := Option.bind_eq_some_iff.mp moved
          exact (of_modify changed fun _ _ => rfl).trans (of_bearerFlowCtl moved)
        · cases moved
          exact refl _

theorem of_burstCheck {ipType mark len : BitVec 32}
    (done : qos.burstCheck dev ipType mark len = some qos') : SameShape qos qos' := by
  unfold QosInfo.burstCheck at done
  split at done
  · cases done
    exact refl _
  · obtain ⟨bearer, _, done⟩ := Option.bind_eq_some_iff.mp done
    obtain ⟨counted, changed, done⟩ := Option.bind_eq_some_iff.mp done
    have first : SameShape qos counted := of_modify changed fun _ _ => rfl
    split at done
    · cases done
      exact first
    · obtain ⟨used, changed, done⟩ := Option.bind_eq_some_iff.mp done
      have second := first.trans (of_modify changed fun _ _ => rfl)
      split at done
      · exact second.trans (of_bearerFlowCtl done)
      · cases done
        exact second

theorem of_watchdogFn (done : qos.watchdogFn dev p = some qos') : SameShape qos qos' := by
  obtain ⟨bearer, _, done⟩ := Option.bind_eq_some_iff.mp done
  obtain ⟨recovered, tried, done⟩ := Option.bind_eq_some_iff.mp done
  apply trans _ (of_modify done fun _ _ => rfl)
  split at tried
  · cases tried
    exact refl _
  · obtain ⟨cleared, changed, tried⟩ := Option.bind_eq_some_iff.mp tried
    have first : SameShape qos cleared := of_modify changed fun _ _ => rfl
    split at tried
    · obtain ⟨granted, changed, tried⟩ := Option.bind_eq_some_iff.mp tried
      exact (first.trans (of_modify changed fun _ _ => rfl)).trans (of_bearerFlowCtl tried)
    · cases tried
      exact first

theorem of_markLowLatency (info : FlowStatus) (itm : Bearer) :
    SameShape qos (qos.markLowLatency info itm) := by
  unfold QosInfo.markLowLatency
  split
  · refine { refl qos with mq := fun j => ?_ }
    by_cases same : j = itm.mqIdx
    · subst same
      simp
    · simp [Function.update_of_ne same]
  · exact refl qos

theorem ties_noteRatSwitch (bearer : Bearer) (info : FlowStatus) (ancillary : Ancillary) :
    (bearer.noteRatSwitch info ancillary).ties = bearer.ties := by
  unfold Bearer.noteRatSwitch
  split <;> rfl

theorem ties_switchLowLatency (bearer : Bearer) (info : FlowStatus) :
    (bearer.switchLowLatency info).ties = bearer.ties := by
  unfold Bearer.switchLowLatency
  split <;> rfl

theorem ties_offered (bearer : Bearer) (info : FlowStatus) (isQuery : Bool) :
    (bearer.offered dev info isQuery).2.ties = bearer.ties := by
  unfold Bearer.offered Bearer.adjustGrant
  split
  · split <;> rfl
  · rfl

theorem ties_granted (bearer : Bearer) (info : FlowStatus) (ancillary : Ancillary)
    (isQuery : Bool) (adjusted : BitVec 32) :
    (bearer.granted dev info ancillary isQuery adjusted).ties = bearer.ties := by
  unfold Bearer.granted
  dsimp only
  split
  · exact ties_watchdogAdd _
  · exact ties_watchdogRemove _

theorem of_updateGrant {info : FlowStatus} {ancillary : Ancillary} {isQuery : Bool}
    (done : qos.updateGrant dev p info ancillary isQuery = some qos') : SameShape qos qos' := by
  obtain ⟨itm, found, done⟩ := Option.bind_eq_some_iff.mp done
  split at done
  · cases done
    exact refl _
  · dsimp only at done
    split at done
    · apply of_modify done
      intro bearer there
      rw [found] at there
      cases there
      exact ties_noteRatSwitch itm info ancillary
    · obtain ⟨granted, changed, done⟩ := Option.bind_eq_some_iff.mp done
      have marked : SameShape qos (qos.markLowLatency info (itm.noteRatSwitch info ancillary)) :=
        of_markLowLatency _ _
      have first : SameShape qos granted := by
        apply marked.trans (of_modify changed _)
        intro bearer there
        obtain ⟨bearer', there', same⟩ := marked.bearer_of found
        rw [there] at there'
        cases there'
        rw [ties_granted, ties_offered, ties_switchLowLatency, ties_noteRatSwitch, same]
      split at done
      · exact first.trans (of_bearerFlowCtl done)
      · cases done
        exact first

end SameShape

end VendorModules.Qos
