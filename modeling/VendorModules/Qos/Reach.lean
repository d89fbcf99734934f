import VendorModules.Lib.Workers
import VendorModules.Qos.Sections

namespace VendorModules.Qos

open Lib

variable {dev : Device} {qos qos' : QosInfo} {flows : List FlowMap} {p : Nat} {itm : FlowMap}

inductive Assigned (dev : Device) (qos : QosInfo) (p : Nat) (mqIdx : Nat) (qos' : QosInfo) : Prop
  | kept (why : (dev.sa = true ∧ mqIdx = defaultMqNum) ∨ (qos.mq mqIdx).bearer.isSome)
      (after : qos' = qos)
  | taken (real : ¬ (dev.sa = true ∧ mqIdx = defaultMqNum)) (free : (qos.mq mqIdx).bearer = none)
      {bearer : Bearer} (found : qos.bearers p = some bearer)
      {ackMqIdx : Nat}
      (ack : ackMqIdx = if dev.sa then mqIdx + ackMqOffset else bearer.ackMqIdx)
      {running : Nat → Bool}
      (opened : ∀ i, running i = if i < dev.numTxQueues ∧
        (i = mqIdx ∨ dev.sa = true ∧ i = mqIdx + ackMqOffset) then true else qos.running i)
      (after : qos' = { qos.setBearer p { bearer with
          mqIdx, ackMqIdx
          grantSize := if bearer.grantSize = 0 then defaultGrant else bearer.grantSize } with
        mq := Function.update qos.mq mqIdx
          ⟨some p, bearer.lowLatency, false⟩
        running })

theorem openQueues_eq (dev : Device) (qos : QosInfo) (mqIdx ackMqIdx : Nat) :
    ∃ running, (if dev.sa then (qos.flowControl dev mqIdx true).flowControl dev ackMqIdx true
        else qos.flowControl dev mqIdx true) = { qos with running } ∧
      ∀ i, running i = if i < dev.numTxQueues ∧ (i = mqIdx ∨ dev.sa = true ∧ i = ackMqIdx) then true
        else qos.running i := by
  obtain ⟨running, first⟩ := flowControl_eq dev qos mqIdx true
  obtain ⟨running', second⟩ := flowControl_eq dev { qos with running }
    ackMqIdx true
  refine ⟨if dev.sa then running' else running, ?_, fun i => ?_⟩
  · rw [first, second]
    split <;> rfl
  · have opened := congrArg (QosInfo.running · i) first
    have opened' := congrArg (QosInfo.running · i) second
    simp only [running_flowControl] at opened opened'
    cases dev.sa with
    | false =>
      simp only [Bool.false_eq_true, if_false, false_and, or_false]
      exact opened.symm
    | true =>
      simp only [if_true, true_and]
      rw [← opened', ← opened]
      by_cases ack : i < dev.numTxQueues ∧ i = ackMqIdx
      · rw [if_pos ack, if_pos ⟨ack.1, .inr ack.2⟩]
      · rw [if_neg ack]
        by_cases data : i < dev.numTxQueues ∧ i = mqIdx
        · rw [if_pos data, if_pos ⟨data.1, .inl data.2⟩]
        · rw [if_neg data, if_neg]
          rintro ⟨inside, here | here⟩
          · exact data ⟨inside, here⟩
          · exact ack ⟨inside, here⟩

theorem updateMq_some (assigned : qos.updateMq dev p itm = some qos') :
    Assigned dev qos p itm.mqIdx qos' := by
  unfold QosInfo.updateMq at assigned
  split at assigned
  · rename_i default
    cases assigned
    exact .kept (.inl default) rfl
  · rename_i real
    split at assigned
    · rename_i other
      cases assigned
      exact .kept (.inr other) rfl
    · rename_i free
      obtain ⟨bearer, found, assigned⟩ := Option.bind_eq_some_iff.mp assigned
      obtain ⟨changed, modified, assigned⟩ := Option.bind_eq_some_iff.mp assigned
      obtain ⟨bearer', found', rfl⟩ := modify_some modified
      rw [found] at found'
      cases found'
      cases assigned
      obtain ⟨running, opens, opened⟩ := openQueues_eq dev { qos.setBearer p
        { bearer with
          mqIdx := itm.mqIdx
          ackMqIdx := if dev.sa then itm.mqIdx + ackMqOffset else bearer.ackMqIdx
          grantSize := if bearer.grantSize = 0 then defaultGrant else bearer.grantSize } with
        mq := Function.update qos.mq itm.mqIdx ⟨some p, bearer.lowLatency, false⟩ }
        itm.mqIdx (if dev.sa then itm.mqIdx + ackMqOffset else bearer.ackMqIdx)
      refine Assigned.taken real (by simpa using free) found rfl (?_ : ∀ i, running i = _) ?_
      · intro i
        rw [opened i]
        cases dev.sa with
        | false => simp only [Bool.false_eq_true, false_and]
        | true => rfl
      · exact opens

/-! ### The sections of the RTNL thread -/

theorem getFlowMap_some {flowId ipType : BitVec 32} {k : Nat}
    (found : qos.getFlowMap flowId ipType = some k) :
    ∃ itm, qos.flowHead[k]? = some itm ∧ itm.flowId = flowId ∧ itm.ipType = ipType := by
  obtain ⟨inside, matched, -⟩ := List.findIdx?_eq_some_iff_getElem.mp found
  simp only [Bool.and_eq_true, beq_iff_eq] at matched
  exact ⟨_, List.getElem?_eq_getElem inside, matched⟩

namespace LinkedTo

theorem assign (linked : LinkedTo qos flows none) {mqIdx : Nat} (there : p ∈ qos.bearerHead)
    (assigned : Assigned dev qos p mqIdx qos') : LinkedTo qos' flows none := by
  cases assigned with
  | kept _ after => rwa [after]
  | @taken _ free bearer found ackMqIdx _ running _ after =>
    have changed := linked.of_recount none found { bearer with
      mqIdx, ackMqIdx
      grantSize := if bearer.grantSize = 0 then defaultGrant else bearer.grantSize } rfl
      (fun _ _ => Iff.rfl) (fun there => linked.counted p there bearer found)
    rw [after]
    exact { changed with
      queued := fun i inside p' queued => by
        by_cases same : i = mqIdx
        · subst same
          simp only [Function.update_self, Option.some.injEq] at queued
          rwa [← queued]
        · simp only [Function.update_of_ne same] at queued
          exact linked.queued i inside p' queued }

theorem with_flowHead (linked : LinkedTo qos flows none) (flowHead : List FlowMap) :
    LinkedTo { qos with flowHead } flows none :=
  { linked with }

end LinkedTo

def Aside (qos : QosInfo) : Prop :=
  ∀ r, qos.removedBearer = some r → r ∉ qos.bearerHead ∧ r < qos.fresh

theorem Aside.of_shape (aside : Aside qos) (same : SameShape qos qos') : Aside qos' := by
  intro r removed
  rw [same.removedBearer] at removed
  rw [same.bearerHead, same.fresh]
  exact aside r removed

theorem Aside.put (aside : Aside qos) (linked : LinkedTo qos flows (some p)) {bearer : Bearer}
    (found : qos.bearers p = some bearer) (put : Put dev qos p bearer qos') : Aside qos' := by
  cases put with
  | kept _ after =>
    rw [after]
    exact aside
  | removed _ _ _ _ _ after =>
    rw [after]
    intro r removed
    cases removed
    exact ⟨fun again => absurd rfl (linked.nodup.mem_erase_iff.mp again).1,
      linked.below p bearer found⟩

theorem Aside.get (aside : Aside qos) {bearerId : BitVec 8} {allocated : Bool} {got : Option Nat}
    (gets : LinkedTo.Got qos bearerId allocated qos' got) : Aside qos' := by
  cases gets with
  | found _ _ _ after =>
    rw [after]
    exact aside
  | made _ _ after =>
    rw [after]
    intro r removed
    obtain ⟨off, below⟩ := aside r removed
    refine ⟨?_, Nat.lt_succ_of_lt below⟩
    intro again
    rcases List.mem_cons.mp again with rfl | again
    · exact Nat.lt_irrefl _ below
    · exact off again
  | failed _ _ after => rwa [after]

theorem Aside.assign (aside : Aside qos) {mqIdx : Nat}
    (assigned : Assigned dev qos p mqIdx qos') : Aside qos' := by
  cases assigned with
  | kept _ after => rwa [after]
  | taken _ _ _ _ _ after =>
    rw [after]
    exact aside

inductive Activated (dev : Device) (qos : QosInfo) (newMap : FlowMap)
    (itmAllocated allocated : Bool) (qos' : QosInfo) : QosInfo.Added → Prop
  | known {added : QosInfo.Added} (notFailed : added ≠ .failed) (after : qos' = qos) :
      Activated dev qos newMap itmAllocated allocated qos' added
  | refused (after : qos' = qos) : Activated dev qos newMap itmAllocated allocated qos' .failed
  | rebound {k : Nat} {itm : FlowMap} {put got : QosInfo} {p : Nat}
      (here : qos.flowHead[k]? = some itm) (flowId : itm.flowId = newMap.flowId)
      (ipType : itm.ipType = newMap.ipType)
      (known : qos.getFlowMap newMap.flowId newMap.ipType = some k)
      (moved : itm.bearerId ≠ newMap.bearerId)
      (puts : qos.bearerPut dev itm.bearer false = some put)
      (gets : LinkedTo.Got put newMap.bearerId allocated got (some p))
      (assigns : Assigned dev
        { got with flowHead := got.flowHead.set k { newMap with bearer := some p } } p
        newMap.mqIdx qos') :
      Activated dev qos newMap itmAllocated allocated qos' .done
  | lost {k : Nat} {itm : FlowMap} {put : QosInfo}
      (here : qos.flowHead[k]? = some itm) (flowId : itm.flowId = newMap.flowId)
      (ipType : itm.ipType = newMap.ipType)
      (known : qos.getFlowMap newMap.flowId newMap.ipType = some k)
      (moved : itm.bearerId ≠ newMap.bearerId)
      (puts : qos.bearerPut dev itm.bearer false = some put)
      (gets : LinkedTo.Got put newMap.bearerId allocated qos' none) :
      Activated dev qos newMap itmAllocated allocated qos' .done
  | made {got : QosInfo} {p : Nat} (new : qos.getFlowMap newMap.flowId newMap.ipType = none)
      (room : itmAllocated = true)
      (gets : LinkedTo.Got
        { qos with flowHead := { newMap with bearer := none } :: qos.flowHead }
        newMap.bearerId allocated got (some p))
      (assigns : Assigned dev
        { got with flowHead := got.flowHead.set 0 { newMap with bearer := some p } } p
        newMap.mqIdx qos') :
      Activated dev qos newMap itmAllocated allocated qos' .done
  | unlinked (new : qos.getFlowMap newMap.flowId newMap.ipType = none)
      (room : itmAllocated = true)
      (gets : LinkedTo.Got
        { qos with flowHead := { newMap with bearer := none } :: qos.flowHead }
        newMap.bearerId allocated qos' none) :
      Activated dev qos newMap itmAllocated allocated qos' .done

theorem getFlowMap_none {flowId ipType : BitVec 32}
    (notFound : qos.getFlowMap flowId ipType = none) :
    ∀ itm ∈ qos.flowHead, itm.flowId = flowId → itm.ipType ≠ ipType := by
  intro itm member named typed
  have missed := List.findIdx?_eq_none_iff.mp notFound itm member
  simp [named, typed] at missed

theorem addFlow_some {newMap : FlowMap} {itmAllocated allocated : Bool} {added : QosInfo.Added}
    (adds : qos.addFlow dev newMap itmAllocated allocated = some (qos', added)) :
    Activated dev qos newMap itmAllocated allocated qos' added := by
  unfold QosInfo.addFlow at adds
  split at adds
  · rename_i k found
    obtain ⟨itm, here, named, typed⟩ := getFlowMap_some found
    rw [here] at adds
    simp only [Option.bind_eq_bind, Option.bind_some] at adds
    split at adds
    · rename_i moved
      obtain ⟨rebound, rebinds, adds⟩ := Option.bind_eq_some_iff.mp adds
      cases adds
      obtain ⟨put, puts, rebinds⟩ := Option.bind_eq_some_iff.mp rebinds
      obtain ⟨⟨got, p⟩, gets, rebinds⟩ := Option.bind_eq_some_iff.mp rebinds
      cases p with
      | none =>
        cases rebinds
        exact .lost here named typed found moved puts (LinkedTo.bearerGet_some gets)
      | some p =>
        exact .rebound here named typed found moved puts (LinkedTo.bearerGet_some gets)
          (updateMq_some rebinds)
    · split at adds
      · cases adds
        exact .known (by decide) rfl
      · cases adds
        exact .known (by decide) rfl
  · rename_i notFound
    split at adds
    · rename_i room
      obtain ⟨⟨got, p⟩, gets, adds⟩ := Option.bind_eq_some_iff.mp adds
      cases p with
      | none =>
        cases adds
        exact .unlinked notFound room (LinkedTo.bearerGet_some gets)
      | some p =>
        obtain ⟨assigned, assigns, adds⟩ := Option.bind_eq_some_iff.mp adds
        cases adds
        exact .made notFound room (LinkedTo.bearerGet_some gets)
          (updateMq_some assigns)
    · cases adds
      exact .refused rfl

inductive Deactivated (dev : Device) (qos : QosInfo) (qos' : QosInfo) : Prop
  | removed {k : Nat} {itm : FlowMap} {put : QosInfo} (here : qos.flowHead[k]? = some itm)
      (puts : qos.bearerPut dev itm.bearer true = some put)
      (after : qos' = { put with
        flowHead := put.flowHead.eraseIdx k
        running := if put.flowHead.eraseIdx k = [] then fun _ => true else put.running })
  | unknown (after : qos' = { qos with
      running := if qos.flowHead = [] then fun _ => true else qos.running })

theorem delFlow_some {flowId ipType : BitVec 32}
    (deletes : qos.delFlow dev flowId ipType = some qos') : Deactivated dev qos qos' := by
  obtain ⟨removed, removes, deletes⟩ := Option.bind_eq_some_iff.mp deletes
  cases deletes
  split at removes
  · rename_i k found
    obtain ⟨itm, here, -⟩ := getFlowMap_some found
    rw [here] at removes
    simp only [Option.bind_eq_bind, Option.bind_some] at removes
    obtain ⟨put, puts, removes⟩ := Option.bind_eq_some_iff.mp removes
    cases removes
    apply Deactivated.removed here puts
    split <;> rfl
  · cases removes
    apply Deactivated.unknown
    split <;> rfl

/-- In every state with the lock free: the flows point to bearers that are on the list, which
are counted by them, and the queues have no others. -/
structure Tidy (qos : QosInfo) : Prop where
  linked : LinkedTo qos qos.flowHead none
  aside : Aside qos

theorem Tidy.put (tidy : Tidy qos) {k : Nat} {itm : FlowMap} {reset : Bool}
    (here : qos.flowHead[k]? = some itm)
    (puts : qos.bearerPut dev itm.bearer reset = some qos') :
    ∃ p bearer rest, itm.bearer = some p ∧ qos.bearers p = some bearer ∧
      bearer.bearerId = itm.bearerId ∧ p ∈ qos.bearerHead ∧ Put dev qos p bearer qos' ∧
      qos'.flowHead = qos.flowHead ∧
      qos.flowHead.Perm (itm :: rest) ∧ (∀ next, (qos.flowHead.set k next).Perm (next :: rest)) ∧
      (qos.flowHead.eraseIdx k).Perm rest ∧ LinkedTo qos' rest none ∧ Aside qos' := by
  obtain ⟨rest, apart, set, erased⟩ := perm_of_getElem? here
  obtain ⟨p, bearer, points, there, found, name⟩ :=
    tidy.linked.pointed itm (List.mem_of_getElem? here)
  rw [points] at puts
  obtain ⟨bearer', found', put⟩ := bearerPut_some puts
  rw [found] at found'
  cases found'
  have held : LinkedTo qos rest (some p) := (tidy.linked.of_perm apart).unlink points
  refine ⟨p, bearer, rest, points, found, name, there, put, ?_, apart, set, erased,
    held.put found there put, tidy.aside.put held found put⟩
  cases put with
  | kept _ after => rw [after]
  | removed _ _ _ _ _ after => rw [after]

theorem LinkedTo.Got.flowHead {qos qos' : QosInfo} {bearerId : BitVec 8} {allocated : Bool}
    {got : Option Nat} (gets : LinkedTo.Got qos bearerId allocated qos' got) :
    qos'.flowHead = qos.flowHead := by
  cases gets with
  | found _ _ _ after => rw [after]
  | made _ _ after => rw [after]; rfl
  | failed _ _ after => rw [after]

theorem Assigned.flowHead {mqIdx : Nat} (assigns : Assigned dev qos p mqIdx qos') :
    qos'.flowHead = qos.flowHead := by
  cases assigns with
  | kept _ after => rw [after]
  | taken _ _ _ _ _ after => rw [after]

theorem tidy_of_got {newMap : FlowMap} {allocated : Bool} {got : QosInfo} {flowHead rest}
    (linked : LinkedTo qos rest none) (aside : Aside qos)
    (gets : LinkedTo.Got qos newMap.bearerId allocated got (some p))
    (perm : flowHead.Perm ({ newMap with bearer := some p } :: rest)) {mqIdx : Nat}
    (assigns : Assigned dev { got with flowHead } p mqIdx qos') : Tidy qos' := by
  obtain ⟨held, there, bearer, found, name⟩ := linked.get gets
  have linked' : LinkedTo got ({ newMap with bearer := some p } :: rest) none :=
    held.link rfl there found name
  constructor
  · rw [assigns.flowHead]
    apply LinkedTo.assign _ (by exact there) assigns
    exact (linked'.of_perm perm.symm).with_flowHead flowHead
  · have aside' : Aside got := aside.get gets
    apply Aside.assign _ assigns
    exact aside'

end VendorModules.Qos
