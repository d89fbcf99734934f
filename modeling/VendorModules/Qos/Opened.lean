import VendorModules.Qos.Routed

namespace VendorModules.Qos

open Lib

variable {dev : Device} {qos qos' : QosInfo} {world world' : World} {p : Nat} {bearer : Bearer}
  {flows : List FlowMap} {newMap : FlowMap}

def Mapped (dev : Device) (qos : QosInfo) (newMap : FlowMap) : Prop :=
  ∀ itm ∈ qos.flowHead, itm.key ≠ newMap.key →
    (itm.bearerId = newMap.bearerId → itm.mqIdx = newMap.mqIdx) ∧
      (itm.mqIdx = newMap.mqIdx → Real dev newMap.mqIdx → itm.bearerId = newMap.bearerId)

instance : Decidable (Mapped dev qos newMap) :=
  inferInstanceAs (Decidable (∀ itm ∈ qos.flowHead, _ → _))

def OpensWhileOff (dev : Device) (qos : QosInfo) (newMap : FlowMap) (itmAllocated : Bool) : Prop :=
  Binds qos newMap itmAllocated ∧ Real dev newMap.mqIdx ∧
    ∃ p ∈ qos.bearerHead, (qos.mq newMap.mqIdx).bearer ≠ some p ∧
      ((qos.bearers p).any fun bearer => bearer.bearerId == newMap.bearerId && bearer.txOff) = true

instance (itmAllocated : Bool) : Decidable (OpensWhileOff dev qos newMap itmAllocated) :=
  inferInstanceAs (Decidable (_ ∧ _ ∧ _))

def GrantsAll (info : FlowStatus) : Prop := info.bearerId = 0xFF ∧ info.numBytes ≠ 0

instance (info : FlowStatus) : Decidable (GrantsAll info) :=
  inferInstanceAs (Decidable (_ ∧ _))

/-- A watchdog that recovers its bearer finds it with its transmission on, or finds it removed
with no other bearer waiting at the queue that it had. -/
def Recovers (dev : Device) (qos : QosInfo) (p : Nat) : Prop :=
  ∀ bearer, qos.bearers p = some bearer → bearer.watchdogQuit = false → bearer.grantSize = 0 →
    if p ∈ qos.bearerHead then bearer.txOff = false
    else bearer.mqIdx < maxMqNum → bearer.mqIdx < dev.numTxQueues →
      ((qos.mq bearer.mqIdx).bearer.bind qos.bearers).all (·.grantSize != 0) = true

instance : Decidable (Recovers dev qos p) :=
  match found : qos.bearers p with
  | none => isTrue fun bearer here => by
      rw [found] at here
      cases here
  | some bearer => decidable_of_iff (bearer.watchdogQuit = false → bearer.grantSize = 0 →
      if p ∈ qos.bearerHead then bearer.txOff = false
      else bearer.mqIdx < maxMqNum → bearer.mqIdx < dev.numTxQueues →
        ((qos.mq bearer.mqIdx).bearer.bind qos.bearers).all (·.grantSize != 0) = true)
      ⟨fun spec bearer' here => by
        rw [found] at here
        cases here
        exact spec, fun spec => spec bearer found⟩

def Orderly (dev : Device) (world : World) : Move → Prop
  | .addLocked itmAllocated allocated =>
    match world.rtnl with
    | .adding newMap => Mapped dev world.qos newMap ∧
        ¬ FailsToAllocate world.qos newMap itmAllocated allocated ∧
        ¬ OpensWhileOff dev world.qos newMap itmAllocated
    | _ => True
  | .flowStatus info _ _ _ _ => GrantsAll info →
      ∀ p ∈ world.qos.bearerHead, ((world.qos.bearers p).all fun bearer => !bearer.txOff) = true
  | .watchdogFn p => Recovers dev world.qos p
  | _ => True

instance (move : Move) : Decidable (Orderly dev world move) := by
  unfold Orderly
  exact match move with
    | .addLocked _ _ =>
      match world.rtnl with
      | .idle | .adding _ | .deleting _ _ _ | .cleaning _ | .freeing _ => inferInstance
    | .flowStatus _ _ _ _ _ | .watchdogFn _ => inferInstance
    | .activate _ | .deactivate _ _ | .delLocked | .cleanQuit | .cleanFree | .txLinkStatus _ _
    | .send _ _ _ | .watchdogCalled _ | .enableAllFlows | .preparePsBearers => isTrue trivial

theorem Orderly.careful {move : Move} (orderly : Orderly dev world move) : Careful world move := by
  unfold Careful
  split
  · split
    · rename_i adding
      simp only [Orderly, adding] at orderly
      exact orderly.2.1
    · trivial
  · trivial

/-! ### Activations and deactivations -/

theorem keys_of_perm {itm : FlowMap} {rest : List FlowMap} (serving : Serving dev qos flows)
    (apart : flows.Perm (itm :: rest)) (key : itm.key = newMap.key) :
    ∀ other ∈ rest, other ∈ flows ∧ other.key ≠ newMap.key := by
  have keyed := (serving.routed.of_perm apart).keyed
  intro other among
  refine ⟨apart.mem_iff.mpr (List.mem_cons_of_mem _ among), fun equal => ?_⟩
  apply (List.nodup_cons.mp keyed).1
  exact List.mem_map.mpr ⟨other, among, equal.trans key.symm⟩

theorem Put.others {put : QosInfo} (puts : Put dev qos p bearer put)
    (nodup : qos.bearerHead.Nodup) {p' : Nat} {bearer' : Bearer} (there : p' ∈ put.bearerHead)
    (found : put.bearers p' = some bearer') (differs : bearer'.bearerId ≠ bearer.bearerId) :
    p' ∈ qos.bearerHead ∧ qos.bearers p' = some bearer' ∧
      ∀ i, (qos.mq i).bearer = some p' → (put.mq i).bearer = some p' := by
  cases puts with
  | kept _ after =>
    rw [after] at there found ⊢
    rcases setBearer_read found with ⟨rfl, rfl⟩ | ⟨_, found⟩
    · exact absurd rfl differs
    · exact ⟨there, found, fun _ his => his⟩
  | removed _ mq _ released _ after =>
    rw [after] at there found ⊢
    rcases setBearer_read found with ⟨rfl, rfl⟩ | ⟨other, found⟩
    · exact absurd rfl differs
    · refine ⟨(nodup.mem_erase_iff.mp there).2, found, fun i his => ?_⟩
      dsimp only
      rw [released i, if_neg, his]
      rintro ⟨-, his'⟩
      rw [his] at his'
      exact other (Option.some.inj his')

namespace Serving

theorem of_got {allocated : Bool} {got : QosInfo} (serving : Serving dev qos flows)
    (linked : LinkedTo qos flows none)
    (gets : LinkedTo.Got qos newMap.bearerId allocated got (some p))
    (new : ∀ other ∈ flows, other.key ≠ newMap.key) (inside : newMap.mqIdx < maxMqNum)
    (mapped : ∀ other ∈ flows, (other.bearerId = newMap.bearerId → other.mqIdx = newMap.mqIdx) ∧
      (other.mqIdx = newMap.mqIdx → Real dev newMap.mqIdx → other.bearerId = newMap.bearerId))
    (off : ∀ p ∈ qos.bearerHead, ∀ bearer, qos.bearers p = some bearer →
      bearer.bearerId = newMap.bearerId → bearer.txOff = true → Real dev newMap.mqIdx →
        (qos.mq newMap.mqIdx).bearer = some p)
    {flowHead : List FlowMap} (perm : flowHead.Perm ({ newMap with bearer := some p } :: flows))
    (assigns : Assigned dev { got with flowHead } p newMap.mqIdx qos') :
    Serving dev qos' flowHead := by
  obtain ⟨held, there, bearer, found, name⟩ := linked.get gets
  have serving' : Serving dev got flows := serving.get linked gets
  apply of_perm _ perm.symm
  apply serving'.assign held there found name new inside mapped _ assigns
  intro isOff real
  cases gets with
  | @found _ before there' found' name' after =>
    rw [after] at found ⊢
    simp only [Function.update_self, Option.some.injEq] at found
    exact off p there' before found' name' (by rw [← found] at isOff; exact isOff) real
  | made _ _ after =>
    rw [after] at found
    simp only [LinkedTo.withNew, Function.update_self, Option.some.injEq] at found
    rw [← found] at isOff
    cases isOff

theorem with_flowHead (serving : Serving dev qos flows) (flowHead : List FlowMap) :
    Serving dev { qos with flowHead } flows :=
  ⟨{ serving.routed with }, serving.runs, serving.quiet⟩

theorem activated (serving : Serving dev qos qos.flowHead) (tidy : Tidy qos)
    {itmAllocated allocated : Bool} {added : QosInfo.Added} (inside : newMap.mqIdx < maxMqNum)
    (mapped : Mapped dev qos newMap)
    (careful : ¬ FailsToAllocate qos newMap itmAllocated allocated)
    (on : ¬ OpensWhileOff dev qos newMap itmAllocated)
    (adds : qos.addFlow dev newMap itmAllocated allocated = some (qos', added)) :
    Serving dev qos' qos'.flowHead := by
  have off (binds : Binds qos newMap itmAllocated) : ∀ p ∈ qos.bearerHead, ∀ bearer,
      qos.bearers p = some bearer → bearer.bearerId = newMap.bearerId → bearer.txOff = true →
        Real dev newMap.mqIdx → (qos.mq newMap.mqIdx).bearer = some p := by
    intro p there bearer found name isOff real
    by_contra other
    exact on ⟨binds, real, p, there, other, by simp [found, name, isOff]⟩
  cases addFlow_some adds with
  | known _ after => rwa [after]
  | refused after => rwa [after]
  | @rebound k itm put got p here named typed known moved puts gets assigns =>
    obtain ⟨old, left, rest, points, found, name, there, outcome, flowHead, apart, set, _,
      linked, _⟩ := tidy.put here puts
    have key : itm.key = newMap.key := Prod.ext named typed
    have others := keys_of_perm serving apart key
    have served : Serving dev put rest :=
      (serving.of_perm apart).put (tidy.linked.of_perm apart) points there found outcome
    have binds : Binds qos newMap itmAllocated := by
      simp only [Binds, known, here, Option.map_some]
      simpa using moved
    rw [assigns.flowHead]
    apply served.of_got linked gets (fun other among => (others other among).2) inside
      (fun other among => mapped other (others other among).1 (others other among).2) _ _ assigns
    · intro p' there' bearer' found' name' isOff real
      have differs : bearer'.bearerId ≠ left.bearerId := by
        rw [name', name]
        exact moved.symm
      obtain ⟨there, found, kept⟩ := outcome.others tidy.linked.nodup there' found' differs
      exact kept _ (off binds p' there bearer' found name' isOff real)
    · rw [gets.flowHead, flowHead]
      exact set _
  | lost here named typed known moved puts gets =>
    cases gets with
    | failed free couldNot after =>
      refine absurd ⟨couldNot, ?_, ?_⟩ careful
      · exact LinkedTo.searchBearers_of_none tidy.linked.listed
          (tidy.free_of_put here moved puts free)
      · simp only [Binds, known, here, Option.map_some]
        simpa using moved
  | made new room gets assigns =>
    have binds : Binds qos newMap itmAllocated := by simpa only [Binds, new] using room
    have others : ∀ itm ∈ qos.flowHead, itm.key ≠ newMap.key := fun itm member equal =>
      getFlowMap_none new itm member (congrArg Prod.fst equal) (congrArg Prod.snd equal)
    rw [assigns.flowHead]
    apply (serving.with_flowHead _).of_got (tidy.linked.with_flowHead _) gets others inside
      (fun other among => mapped other among (others other among)) (off binds) _ assigns
    rw [gets.flowHead]
    exact List.Perm.refl _
  | unlinked new room gets =>
    cases gets with
    | failed free couldNot after =>
      refine absurd ⟨couldNot, ?_, ?_⟩ careful
      · exact LinkedTo.searchBearers_of_none tidy.linked.listed free
      · simpa only [Binds, new] using room

theorem wake (serving : Serving dev qos flows) :
    Serving dev { qos with running := if flows = [] then fun _ => true else qos.running } flows := by
  refine ⟨{ serving.routed with }, ?_, serving.quiet⟩
  intro i inside queue p his
  obtain ⟨-, itm, member, -⟩ := serving.routed.assigned i inside p his
  simp only [List.ne_nil_of_mem member, if_false]
  exact serving.runs i inside queue p his

theorem deactivated (serving : Serving dev qos qos.flowHead) (tidy : Tidy qos)
    {flowId ipType : BitVec 32} (deletes : qos.delFlow dev flowId ipType = some qos') :
    Serving dev qos' qos'.flowHead := by
  cases delFlow_some deletes with
  | @removed k itm put here puts after =>
    obtain ⟨_, _, rest, points, found, _, there, outcome, flowHead, apart, _, erased, _⟩ :=
      tidy.put here puts
    have served : Serving dev put rest :=
      (serving.of_perm apart).put (tidy.linked.of_perm apart) points there found outcome
    rw [after, flowHead]
    exact ((served.of_perm erased.symm).with_flowHead (qos.flowHead.eraseIdx k)).wake
  | unknown after =>
    rw [after]
    exact serving.wake

end Serving

end VendorModules.Qos
