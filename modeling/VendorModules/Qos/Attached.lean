import VendorModules.Qos.Reach

namespace VendorModules.Qos

open Lib

variable {dev : Device} {qos qos' : QosInfo} {world world' : World} {p : Nat}

def Binds (qos : QosInfo) (newMap : FlowMap) (itmAllocated : Bool) : Prop :=
  match qos.getFlowMap newMap.flowId newMap.ipType with
  | some k => (qos.flowHead[k]?).map FlowMap.bearerId ≠ some newMap.bearerId
  | none => itmAllocated = true

instance (newMap : FlowMap) (itmAllocated : Bool) : Decidable (Binds qos newMap itmAllocated) := by
  unfold Binds
  split <;> infer_instance

def FailsToAllocate (qos : QosInfo) (newMap : FlowMap) (itmAllocated allocated : Bool) : Prop :=
  allocated = false ∧ qos.getBearerMap newMap.bearerId = some none ∧ Binds qos newMap itmAllocated

instance (newMap : FlowMap) (itmAllocated allocated : Bool) :
    Decidable (FailsToAllocate qos newMap itmAllocated allocated) :=
  inferInstanceAs (Decidable (_ ∧ _))

def Careful (world : World) : Move → Prop
  | .addLocked itmAllocated allocated =>
    match world.rtnl with
    | .adding newMap => ¬ FailsToAllocate world.qos newMap itmAllocated allocated
    | _ => True
  | _ => True

instance (move : Move) : Decidable (Careful world move) := by
  unfold Careful
  split
  · split <;> infer_instance
  · infer_instance

structure Attached (qos : QosInfo) : Prop where
  alive : ∀ p ∈ qos.bearerHead, ∃ bearer, qos.bearers p = some bearer
  nodup : qos.bearerHead.Nodup
  distinct : ∀ p ∈ qos.bearerHead, ∀ p' ∈ qos.bearerHead, ∀ bearer bearer',
    qos.bearers p = some bearer → qos.bearers p' = some bearer' →
      bearer.bearerId = bearer'.bearerId → p = p'
  pointed : ∀ itm ∈ qos.flowHead, ∃ p bearer, itm.bearer = some p ∧ p ∈ qos.bearerHead ∧
    qos.bearers p = some bearer ∧ bearer.bearerId = itm.bearerId
  counted : ∀ p ∈ qos.bearerHead, ∀ bearer, qos.bearers p = some bearer →
    bearer.flowRef = ((qos.flowHead.countP (·.bearer == some p) : Nat) : Int)
  queued : ∀ i < maxMqNum, ∀ p, (qos.mq i).bearer = some p → p ∈ qos.bearerHead

namespace Tidy

theorem attached (tidy : Tidy qos) : Attached qos where
  alive := tidy.linked.listed
  nodup := tidy.linked.nodup
  distinct := tidy.linked.distinct
  pointed := tidy.linked.pointed
  counted := fun p there bearer found => by
    have count := tidy.linked.counted p there bearer found
    simpa using count
  queued := tidy.linked.queued

theorem of_init : Tidy QosInfo.init where
  linked := LinkedTo.of_init
  aside := by
    intro r removed
    cases removed

theorem of_shape (tidy : Tidy qos) (same : SameShape qos qos') : Tidy qos' where
  linked := by
    rw [same.flowHead]
    exact tidy.linked.of_shape same
  aside := tidy.aside.of_shape same

theorem made {newMap : FlowMap} {allocated : Bool} {got : QosInfo} (tidy : Tidy qos)
    (gets : LinkedTo.Got { qos with flowHead := { newMap with bearer := none } :: qos.flowHead }
      newMap.bearerId allocated got (some p))
    (assigns : Assigned dev
      { got with flowHead := got.flowHead.set 0 { newMap with bearer := some p } } p
      newMap.mqIdx qos') : Tidy qos' := by
  have linked := tidy.linked.with_flowHead ({ newMap with bearer := none } :: qos.flowHead)
  apply tidy_of_got linked tidy.aside gets _ assigns
  rw [gets.flowHead]
  exact List.Perm.refl _

theorem free_of_put (tidy : Tidy qos) {k : Nat} {itm newMap : FlowMap} {put : QosInfo}
    {reset : Bool} (here : qos.flowHead[k]? = some itm) (moved : itm.bearerId ≠ newMap.bearerId)
    (puts : qos.bearerPut dev itm.bearer reset = some put)
    (free : ∀ p ∈ put.bearerHead, ∀ bearer, put.bearers p = some bearer →
      bearer.bearerId ≠ newMap.bearerId) :
    ∀ p ∈ qos.bearerHead, ∀ bearer, qos.bearers p = some bearer →
      bearer.bearerId ≠ newMap.bearerId := by
  obtain ⟨p, left, rest, -, found, name, -, outcome, -⟩ := tidy.put here puts
  intro p' there bearer found'
  by_cases same : p' = p
  · subst same
    rw [found] at found'
    cases found'
    rwa [name]
  · apply free p' (LinkedTo.mem_of_put outcome there same)
    cases outcome with
    | kept _ after => simp only [after, Function.update_of_ne same, found']
    | removed _ _ _ _ _ after => simp only [after, Function.update_of_ne same, found']

theorem activated (tidy : Tidy qos) {newMap : FlowMap} {itmAllocated allocated : Bool}
    {added : QosInfo.Added} (careful : ¬ FailsToAllocate qos newMap itmAllocated allocated)
    (adds : qos.addFlow dev newMap itmAllocated allocated = some (qos', added)) : Tidy qos' := by
  cases addFlow_some adds with
  | known _ after => rwa [after]
  | refused after => rwa [after]
  | rebound here flowId ipType known moved puts gets assigns =>
    obtain ⟨_, _, rest, _, _, _, _, _, flowHead, _, set, _, linked, aside⟩ := tidy.put here puts
    apply tidy_of_got linked aside gets _ assigns
    rw [gets.flowHead, flowHead]
    exact set _
  | lost here named typed found moved puts gets =>
    cases gets with
    | failed free couldNot after =>
      refine absurd ⟨couldNot, ?_, ?_⟩ careful
      · exact LinkedTo.searchBearers_of_none tidy.linked.listed
          (tidy.free_of_put here moved puts free)
      · simp only [Binds, found, here, Option.map_some]
        simpa using moved
  | made new room gets assigns => exact tidy.made gets assigns
  | unlinked new room gets =>
    cases gets with
    | failed free couldNot after =>
      refine absurd ⟨couldNot, ?_, ?_⟩ careful
      · exact LinkedTo.searchBearers_of_none tidy.linked.listed free
      · simpa only [Binds, new] using room

theorem deactivated (tidy : Tidy qos) {flowId ipType : BitVec 32}
    (deletes : qos.delFlow dev flowId ipType = some qos') : Tidy qos' := by
  cases delFlow_some deletes with
  | removed here puts after =>
    obtain ⟨_, _, rest, _, _, _, _, _, flowHead, _, _, erased, linked, aside⟩ :=
      tidy.put here puts
    rw [after, flowHead]
    exact ⟨{ linked.of_perm erased.symm with }, aside⟩
  | unknown after =>
    rw [after]
    exact ⟨{ tidy.linked with }, tidy.aside⟩

theorem noref (tidy : Tidy qos) {bearerId : BitVec 8} {allocated : Bool} {got : Option Nat}
    (gets : qos.getBearerNoref bearerId allocated = some (qos', got)) : Tidy qos' := by
  obtain ⟨⟨held, named⟩, counted, gets⟩ := Option.bind_eq_some_iff.mp gets
  have outcome := LinkedTo.bearerGet_some counted
  cases named with
  | none =>
    cases gets
    cases outcome with
    | failed _ _ after => rwa [after]
  | some p =>
    obtain ⟨dropped, changed, gets⟩ := Option.bind_eq_some_iff.mp gets
    cases gets
    obtain ⟨bearer, found, rfl⟩ := modify_some changed
    obtain ⟨linked, -, -⟩ := tidy.linked.get outcome
    constructor
    · rw [outcome.flowHead]
      exact linked.noref found
    · have aside : Aside held := tidy.aside.get outcome
      exact aside

theorem updateFcMap (tidy : Tidy qos) {info : FlowStatus} {ancillary : Ancillary}
    {isQuery allocated : Bool}
    (done : qos.updateFcMap dev info ancillary isQuery allocated = some qos') : Tidy qos' := by
  obtain ⟨named, search, done⟩ := Option.bind_eq_some_iff.mp done
  cases named with
  | some p => exact tidy.of_shape (SameShape.of_updateGrant done)
  | none =>
    dsimp only at done
    split at done
    · obtain ⟨⟨cached, got⟩, gets, done⟩ := Option.bind_eq_some_iff.mp done
      have tidy' := tidy.noref gets
      cases got with
      | some p => exact tidy'.of_shape (SameShape.of_updateGrant done)
      | none =>
        cases done
        exact tidy'
    · cases done
      exact tidy

theorem burstFlowControl (tidy : Tidy qos) {info : FlowStatus} {ancillary : Ancillary}
    {isQuery ignoreGrant allocated : Bool}
    (done : qos.burstFlowControl dev info ancillary isQuery ignoreGrant allocated = some qos') :
    Tidy qos' := by
  unfold QosInfo.burstFlowControl at done
  split at done
  · cases done
    exact tidy
  · generalize (if ignoreGrant then
      { info with numBytes := defaultGrant, rxBytesValid := true, rxBytes := 0xFFFFFFFF }
      else info) = info' at done
    dsimp only at done
    split at done
    · exact tidy.of_shape (SameShape.of_allBearerFlowCtl done)
    · exact tidy.updateFcMap done

theorem free (tidy : Tidy qos) (removed : qos.removedBearer = some p) :
    Tidy { qos with bearers := Function.update qos.bearers p none, removedBearer := none } := by
  obtain ⟨off, -⟩ := tidy.aside p removed
  have kept {p' : Nat} (there : p' ∈ qos.bearerHead) :
      Function.update qos.bearers p none p' = qos.bearers p' := by
    apply Function.update_of_ne
    rintro rfl
    exact off there
  have linked := tidy.linked
  constructor
  · constructor
    · exact linked.nodup
    · intro p' there
      simp only [kept there]
      exact linked.listed p' there
    · intro p' bearer found
      by_cases same : p' = p
      · subst same
        simp at found
      · simp only [Function.update_of_ne same] at found
        exact linked.below p' bearer found
    · intro p₁ there₁ p₂ there₂ b₁ b₂ found₁ found₂
      simp only [kept there₁] at found₁
      simp only [kept there₂] at found₂
      exact linked.distinct p₁ there₁ p₂ there₂ b₁ b₂ found₁ found₂
    · intro itm member
      obtain ⟨p', bearer, points, there, found, name⟩ := linked.pointed itm member
      exact ⟨p', bearer, points, there, by simp only [kept there, found], name⟩
    · intro p' there bearer found
      simp only [kept there] at found
      exact linked.counted p' there bearer found
    · exact linked.queued
  · intro r again
    cases again

end Tidy

theorem Tidy.step {move : Move} (tidy : Tidy world.qos) (careful : Careful world move)
    (taken : step dev world move = some world') : Tidy world'.qos := by
  have withQos {result : Option QosInfo}
      (changed : world.withQos result = some world')
      (keeps : ∀ qos', result = some qos' → Tidy qos') : Tidy world'.qos := by
    obtain ⟨qos', done, rfl⟩ := Option.map_eq_some_iff.mp changed
    exact keeps qos' done
  cases move with
  | activate newMap =>
    simp only [Qos.step] at taken
    split at taken
    · split at taken <;> cases taken <;> exact tidy
    · cases taken
  | deactivate flowId ipType =>
    simp only [Qos.step] at taken
    split at taken
    · cases taken
      exact tidy
    · cases taken
  | addLocked itmAllocated allocated =>
    simp only [Qos.step] at taken
    split at taken
    · rename_i newMap adding
      simp only [Careful, adding] at careful
      obtain ⟨⟨qos', added⟩, adds, taken⟩ := Option.bind_eq_some_iff.mp taken
      have tidy' := tidy.activated careful adds
      cases added <;> cases taken <;> exact tidy'
    · cases taken
  | delLocked =>
    simp only [Qos.step] at taken
    split at taken
    · obtain ⟨qos', deletes, taken⟩ := Option.bind_eq_some_iff.mp taken
      cases taken
      exact tidy.deactivated deletes
    · cases taken
  | cleanQuit =>
    simp only [Qos.step] at taken
    split at taken
    · split at taken
      · cases taken
        exact tidy
      · obtain ⟨qos', quits, taken⟩ := Option.bind_eq_some_iff.mp taken
        cases taken
        exact tidy.of_shape (SameShape.of_modify quits fun _ _ => rfl)
    · cases taken
  | cleanFree =>
    simp only [Qos.step] at taken
    split at taken
    · obtain ⟨p, removed, taken⟩ := Option.bind_eq_some_iff.mp taken
      obtain ⟨bearer, found, taken⟩ := Option.bind_eq_some_iff.mp taken
      split at taken
      · cases taken
      · cases taken
        exact tidy.free removed
    · cases taken
  | flowStatus info ancillary isQuery ignoreGrant allocated =>
    exact withQos taken fun _ done => tidy.burstFlowControl done
  | txLinkStatus txStatus bearerId =>
    exact withQos taken fun _ done => tidy.of_shape (SameShape.of_updateTxLinkStatus done)
  | send ipType mark len =>
    exact withQos taken fun _ done => tidy.of_shape (SameShape.of_burstCheck done)
  | watchdogCalled p =>
    obtain ⟨bearer, found, taken⟩ := Option.bind_eq_some_iff.mp taken
    split at taken
    · exact withQos taken fun _ done =>
        tidy.of_shape (SameShape.of_modify done fun _ _ => rfl)
    · cases taken
  | watchdogFn p =>
    obtain ⟨bearer, found, taken⟩ := Option.bind_eq_some_iff.mp taken
    split at taken
    · exact withQos taken fun _ done => tidy.of_shape (SameShape.of_watchdogFn done)
    · cases taken
  | enableAllFlows =>
    exact withQos taken fun _ done => tidy.of_shape (SameShape.of_enableAllFlows done)
  | preparePsBearers =>
    exact withQos taken fun _ done => tidy.of_shape (SameShape.of_preparePsBearers done)

theorem attached_of_reachable
    (reached : Reachable Initial (StepOf (step dev) Careful) world) : Attached world.qos := by
  have tidy : Tidy world.qos := by
    induction reached with
    | start initial =>
      cases initial
      exact Tidy.of_init
    | next _ taken ih =>
      obtain ⟨move, careful, taken⟩ := taken
      exact ih.step careful taken
  exact tidy.attached

/-! A flow is activated, and moves to another bearer that cannot be allocated. -/

def modem : Device where
  sa := false
  qmap := true
  numTxQueues := 16

def boundMoves : List Move :=
  [.activate ⟨1, 7, 4, 1, none⟩, .addLocked true true, .cleanQuit]

def lostMoves : List Move :=
  boundMoves ++ [.activate ⟨2, 7, 4, 2, none⟩, .addLocked true false, .cleanQuit, .cleanFree]

def start : World := { qos := QosInfo.init, rtnl := .idle }

theorem start_initial : Initial start :=
  rfl

theorem boundMoves_run : (play (step modem) Careful start boundMoves).isSome := by
  decide +kernel

def bound : World := (play (step modem) Careful start boundMoves).get boundMoves_run

theorem bound_attached : bound.qos.flowHead.length = 1 ∧ Attached bound.qos :=
  ⟨by decide +kernel,
    @attached_of_reachable modem bound (play_reachable (.start start_initial) boundMoves_run)⟩

theorem lostMoves_run : (play (step modem) (fun _ _ => True) start lostMoves).isSome := by
  decide +kernel

def lost : World := (play (step modem) (fun _ _ => True) start lostMoves).get lostMoves_run

/-- The flow still points to the bearer that was freed, and the next packet reads it. -/
theorem lost_not_attached :
    Reachable Initial (StepOf (step modem) fun _ _ => True) lost ∧ ¬ Attached lost.qos ∧
      step modem lost (.send 4 7 100) = none := by
  refine ⟨play_reachable (.start start_initial) lostMoves_run, ?_, ?_⟩
  · intro attached
    have flows : lost.qos.flowHead = [⟨1, 7, 4, 1, some 0⟩] := by decide +kernel
    have bearers : lost.qos.bearerHead = [] := by decide +kernel
    obtain ⟨p, _, _, there, _⟩ := attached.pointed ⟨1, 7, 4, 1, some 0⟩ (by simp [flows])
    simp [bearers] at there
  · have unread : (step modem lost (.send 4 7 100)).isNone = true := by decide +kernel
    exact Option.isNone_iff_eq_none.mp unread

end VendorModules.Qos
