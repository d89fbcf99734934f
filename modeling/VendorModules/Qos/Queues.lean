import VendorModules.Qos.Grants

namespace VendorModules.Qos

open Lib

variable {dev : Device} {qos qos' : QosInfo} {world world' : World} {p : Nat} {bearer : Bearer}
  {flows : List FlowMap} {newMap : FlowMap}

theorem defaultGrant_ne_zero : defaultGrant ≠ 0 := by
  decide

theorem defaultCallGrant_ne_zero : defaultCallGrant ≠ 0 := by
  decide

namespace Serving

theorem noref (serving : Serving dev qos flows) (linked : LinkedTo qos flows none)
    {bearerId : BitVec 8} {allocated : Bool} {got : Option Nat}
    (gets : qos.getBearerNoref bearerId allocated = some (qos', got)) :
    Serving dev qos' flows ∧ qos'.flowHead = qos.flowHead ∧
      ∀ p, got = some p → p ∈ qos'.bearerHead := by
  obtain ⟨⟨held, named⟩, counted, gets⟩ := Option.bind_eq_some_iff.mp gets
  have outcome := LinkedTo.bearerGet_some counted
  cases named with
  | none =>
    cases gets
    cases outcome with
    | failed _ _ after =>
      rw [after]
      exact ⟨serving, rfl, nofun⟩
  | some p =>
    obtain ⟨dropped, changed, gets⟩ := Option.bind_eq_some_iff.mp gets
    cases gets
    obtain ⟨bearer, found, rfl⟩ := modify_some changed
    have served : Serving dev held flows := serving.get linked outcome
    refine ⟨served.of_bearer found rfl rfl rfl rfl, outcome.flowHead, ?_⟩
    rintro _ ⟨⟩
    exact (linked.get outcome).2.1

theorem of_updateFcMap (serving : Serving dev qos flows) (linked : LinkedTo qos flows none)
    {info : FlowStatus} {ancillary : Ancillary} {isQuery allocated : Bool}
    (done : qos.updateFcMap dev info ancillary isQuery allocated = some qos') :
    Serving dev qos' flows ∧ qos'.flowHead = qos.flowHead := by
  obtain ⟨named, search, done⟩ := Option.bind_eq_some_iff.mp done
  cases named with
  | some p => exact ⟨serving.of_updateGrant (LinkedTo.searchBearers_some search).1 done,
      (SameShape.of_updateGrant done).flowHead⟩
  | none =>
    dsimp only at done
    split at done
    · obtain ⟨⟨cached, got⟩, gets, done⟩ := Option.bind_eq_some_iff.mp done
      obtain ⟨served, flowHead, listed⟩ := serving.noref linked gets
      cases got with
      | some p => exact ⟨served.of_updateGrant (listed p rfl) done,
          (SameShape.of_updateGrant done).flowHead.trans flowHead⟩
      | none =>
        cases done
        exact ⟨served, flowHead⟩
    · cases done
      exact ⟨serving, rfl⟩

theorem of_burstFlowControl (serving : Serving dev qos flows) (linked : LinkedTo qos flows none)
    {info : FlowStatus} {ancillary : Ancillary} {isQuery ignoreGrant allocated : Bool}
    (on : GrantsAll info → ∀ p ∈ qos.bearerHead,
      ((qos.bearers p).all fun bearer => !bearer.txOff) = true)
    (done : qos.burstFlowControl dev info ancillary isQuery ignoreGrant allocated = some qos') :
    Serving dev qos' flows ∧ qos'.flowHead = qos.flowHead := by
  unfold QosInfo.burstFlowControl at done
  split at done
  · cases done
    exact ⟨serving, rfl⟩
  · rename_i heard
    have asked {info' : FlowStatus} (named : info'.bearerId = 0xFF) (some_bytes : info'.numBytes ≠ 0)
        (same : info'.bearerId = info.bearerId) (bytes : info'.numBytes ≠ 0 → info.numBytes ≠ 0) :
        ∀ p ∈ qos.bearerHead, ∀ bearer, qos.bearers p = some bearer → bearer.txOff = false := by
      intro p there bearer found
      have off := on ⟨same.symm.trans named, bytes some_bytes⟩ p there
      simpa [found] using off
    generalize changed : (if ignoreGrant then
      { info with numBytes := defaultGrant, rxBytesValid := true, rxBytes := 0xFFFFFFFF }
      else info) = info' at done
    have same : info'.bearerId = info.bearerId := by
      rw [← changed]
      split <;> rfl
    have bytes : info'.numBytes ≠ 0 → info.numBytes ≠ 0 := by
      rw [← changed]
      split
      · rename_i ignored
        intro _ zero
        exact heard (by simp [ignored, zero])
      · exact id
    dsimp only at done
    split at done
    · rename_i named
      exact ⟨serving.of_allBearerFlowCtl (fun _ there => there)
        (fun some_bytes => asked named some_bytes same bytes) done,
        (SameShape.of_allBearerFlowCtl done).flowHead⟩
    · exact serving.of_updateFcMap linked done

theorem of_updateTxLinkStatus (serving : Serving dev qos flows) {txStatus : Bool}
    {bearerId : BitVec 8} (done : qos.updateTxLinkStatus dev txStatus bearerId = some qos') :
    Serving dev qos' flows := by
  obtain ⟨named, search, done⟩ := Option.bind_eq_some_iff.mp done
  cases named with
  | none =>
    cases done
    exact serving
  | some p =>
    have there := (LinkedTo.searchBearers_some search).1
    obtain ⟨itm, found, done⟩ := Option.bind_eq_some_iff.mp done
    split at done
    · cases done
      exact serving
    · rename_i changes
      obtain ⟨switched, moved, done⟩ := Option.bind_eq_some_iff.mp done
      split at moved
      · -- the transmission stops, and the grant goes with it
        obtain ⟨stopped, changed, moved⟩ := Option.bind_eq_some_iff.mp moved
        have found' := control_found (modify_found found changed) moved
        have gone : (Bearer.watchdogRemove { itm with
            grantSize := 0, tcpBidir := false, bytesInFlight := 0 }).grantSize = 0 :=
          Bearer.grantSize_watchdogRemove
        have served : Serving dev switched flows :=
          serving.touch there found changed moved (SameShape.ties_watchdogRemove _)
            fun _ => gone
        exact served.regrant found' done rfl Iff.rfl fun _ _ => gone
      · rename_i had
        split at moved
        · -- the transmission starts again, with the default grant
          rename_i resumes
          obtain ⟨granted, changed, moved⟩ := Option.bind_eq_some_iff.mp moved
          have found' := control_found (modify_found found changed) moved
          have but : ServingBut dev granted flows p :=
            (serving.but p).modify changed fun _ _ => rfl
          have there' : p ∈ granted.bearerHead := by rwa [modify_bearerHead changed]
          obtain ⟨but', runs⟩ := but.control (but.routed.harmless there') moved
          apply (but'.modify done fun _ _ => rfl).whole (runs.modify done fun _ _ => Iff.rfl)
          intro _ bearer' found'' off
          rw [modify_found found' done] at found''
          cases found''
          simp [resumes.2.1] at off
        · cases moved
          apply serving.regrant found done rfl Iff.rfl
          intro _ off
          by_contra grant
          exact had ⟨grant, off⟩

theorem of_burstCheck (serving : Serving dev qos flows)
    (listed : ∀ itm ∈ qos.flowHead, ∀ p, itm.bearer = some p → p ∈ qos.bearerHead)
    {ipType mark len : BitVec 32}
    (done : qos.burstCheck dev ipType mark len = some qos') : Serving dev qos' flows := by
  unfold QosInfo.burstCheck at done
  split at done
  · cases done
    exact serving
  · rename_i p points
    obtain ⟨itm, member, points⟩ := Option.bind_eq_some_iff.mp points
    obtain ⟨k, -, here⟩ := Option.bind_eq_some_iff.mp member
    have there := listed itm (List.mem_of_getElem? here) p points
    obtain ⟨bearer, found, done⟩ := Option.bind_eq_some_iff.mp done
    obtain ⟨counted, changed, done⟩ := Option.bind_eq_some_iff.mp done
    have found' := modify_found found changed
    have served : Serving dev counted flows := serving.regrant found changed rfl Iff.rfl
      fun _ off => serving.quiet p there bearer found off
    split at done
    · cases done
      exact served
    · rename_i had
      obtain ⟨used, changed', done⟩ := Option.bind_eq_some_iff.mp done
      have quiet (off : bearer.txOff = true) : False :=
        had (serving.quiet p there bearer found off)
      split at done
      · apply served.touch _ found' changed' done rfl fun off => (quiet off).elim
        rwa [modify_bearerHead changed]
      · rename_i left
        cases done
        apply served.regrant found' changed' rfl _ fun _ off => (quiet off).elim
        exact iff_of_false left had

theorem of_watchdogFn (serving : Serving dev qos flows) (recovers : Recovers dev qos p)
    (done : qos.watchdogFn dev p = some qos') : Serving dev qos' flows := by
  obtain ⟨bearer, found, done⟩ := Option.bind_eq_some_iff.mp done
  obtain ⟨recovered, tried, done⟩ := Option.bind_eq_some_iff.mp done
  have quiet (there : p ∈ qos.bearerHead) (off : bearer.txOff = true) : bearer.grantSize = 0 :=
    serving.quiet p there bearer found off
  split at tried
  · cases tried
    exact serving.regrant found done rfl Iff.rfl quiet
  · rename_i quit
    obtain ⟨cleared, changed, tried⟩ := Option.bind_eq_some_iff.mp tried
    have served : Serving dev cleared flows := serving.regrant found changed rfl Iff.rfl quiet
    have found' := modify_found found changed
    split at tried
    · rename_i none_left
      obtain ⟨granted, changed', tried⟩ := Option.bind_eq_some_iff.mp tried
      have recovers := recovers bearer found (by simpa using quit) none_left
      have but : ServingBut dev granted flows p := (served.but p).modify changed' fun _ _ => rfl
      have head : granted.bearerHead = qos.bearerHead :=
        (modify_bearerHead changed').trans (modify_bearerHead changed)
      have granted_found := modify_found found' changed'
      have harmless : Harmless dev granted p := by
        by_cases there : p ∈ qos.bearerHead
        · exact but.routed.harmless (by rwa [head])
        · rw [if_neg there] at recovers
          intro bearer' found'' inside queue p' differs his
          rw [granted_found] at found''
          cases found''
          refine ⟨defaultCallGrant_ne_zero, fun other found'' => ?_⟩
          obtain ⟨_, _, rfl⟩ := modify_some changed'
          obtain ⟨_, _, rfl⟩ := modify_some changed
          simp only [Function.update_of_ne differs] at found''
          dsimp only at his
          have runs := recovers inside queue
          simpa [his, found''] using runs
      obtain ⟨but', runs⟩ := but.control harmless tried
      have found'' := control_found granted_found tried
      apply (but'.modify done fun _ _ => rfl).whole (runs.modify done fun _ _ => Iff.rfl)
      intro there bearer' here off
      rw [modify_bearerHead done, control_bearerHead tried, head] at there
      rw [modify_found found'' done] at here
      cases here
      rw [if_pos there] at recovers
      exact absurd (recovers.symm.trans off) (by decide)
    · cases tried
      exact served.regrant found' done rfl Iff.rfl fun there off =>
        quiet (by rwa [modify_bearerHead changed] at there) off

/-! ### Power save -/

theorem of_enableAllFlows {ps : List Nat} (serving : Serving dev qos flows)
    (listed : ∀ p ∈ ps, p ∈ qos.bearerHead)
    (done : QosInfo.enableAllFlows dev ps qos = some qos') : Serving dev qos' flows := by
  induction ps generalizing qos with
  | nil =>
    cases done
    exact serving
  | cons p rest ih =>
    obtain ⟨reset, changed, done⟩ := Option.bind_eq_some_iff.mp done
    obtain ⟨bearer, read, done⟩ := Option.bind_eq_some_iff.mp done
    obtain ⟨before, found, -⟩ := modify_some changed
    have there := listed p List.mem_cons_self
    have grant : (QosInfo.resetBearer before).grantSize = before.grantSize :=
      Bearer.grantSize_watchdogRemove
    have off : (QosInfo.resetBearer before).txOff = before.txOff := Bearer.txOff_watchdogRemove
    have served : Serving dev reset flows := by
      apply serving.regrant found changed (SameShape.ties_resetBearer before)
      · rw [grant]
      · intro _ isOff
        rw [grant]
        exact serving.quiet p there before found (off ▸ isOff)
    rw [modify_found found changed, Option.some.injEq] at read
    subst read
    have there' : p ∈ reset.bearerHead := by rwa [modify_bearerHead changed]
    have listed' : ∀ p ∈ rest, p ∈ reset.bearerHead := by
      intro p' member
      rw [modify_bearerHead changed]
      exact listed p' (List.mem_cons_of_mem _ member)
    have found' := modify_found found changed
    split at done
    · exact ih served listed' done
    · rename_i on
      obtain ⟨granted, changed', done⟩ := Option.bind_eq_some_iff.mp done
      obtain ⟨woken, wakes, done⟩ := Option.bind_eq_some_iff.mp done
      split at wakes
      · apply ih _ _ done
        · exact served.touch there' found' changed' wakes rfl fun isOff => absurd isOff on
        · intro p' member
          rw [control_bearerHead wakes, modify_bearerHead changed']
          exact listed' p' member
      · rename_i had
        cases wakes
        apply ih _ _ done
        · apply served.regrant found' changed' rfl _ fun _ isOff => absurd isOff on
          exact iff_of_false defaultGrant_ne_zero (by simpa using had)
        · intro p' member
          rw [modify_bearerHead changed']
          exact listed' p' member

theorem of_preparePsBearers {ps : List Nat} (serving : Serving dev qos flows)
    (listed : ∀ p ∈ ps, p ∈ qos.bearerHead)
    (done : QosInfo.preparePsBearers ps qos = some qos') : Serving dev qos' flows := by
  induction ps generalizing qos with
  | nil =>
    cases done
    exact serving
  | cons p rest ih =>
    obtain ⟨bearer, found, done⟩ := Option.bind_eq_some_iff.mp done
    obtain ⟨reset, changed, done⟩ := Option.bind_eq_some_iff.mp done
    have there := listed p List.mem_cons_self
    split at changed
    · rename_i had
      apply ih _ _ done
      · apply serving.regrant found changed (SameShape.ties_resetBearer bearer)
        · exact iff_of_false defaultGrant_ne_zero had
        · intro _ off
          have isOff : bearer.txOff = true :=
            (@Bearer.txOff_watchdogRemove { bearer with
              bytesInFlight := 0, tcpBidir := false, ratSwitch := false }).symm.trans off
          exact absurd (serving.quiet p there bearer found isOff) had
      · intro p' member
        rw [modify_bearerHead changed]
        exact listed p' (List.mem_cons_of_mem _ member)
    · cases changed
      exact ih serving (fun p' member => listed p' (List.mem_cons_of_mem _ member)) done

/-! ### The removed bearer -/

theorem free (serving : Serving dev qos flows) (off : p ∉ qos.bearerHead) :
    Serving dev { qos with
      bearers := Function.update qos.bearers p none, removedBearer := none } flows := by
  have read {p' : Nat} {bearer' : Bearer}
      (found : Function.update qos.bearers p none p' = some bearer') :
      qos.bearers p' = some bearer' := by
    by_cases same : p' = p
    · subst same
      simp at found
    · rwa [Function.update_of_ne same] at found
  refine ⟨{ serving.routed with idx := ?_, placed := ?_, acks := ?_ }, ?_, ?_⟩
  · exact fun i inside p' his bearer' found =>
      serving.routed.idx i inside p' his bearer' (read found)
  · exact fun p' there bearer' found => serving.routed.placed p' there bearer' (read found)
  · exact fun p' bearer' found => serving.routed.acks p' bearer' (read found)
  · exact fun i inside queue p' his bearer' found =>
      serving.runs i inside queue p' his bearer' (read found)
  · exact fun p' there bearer' found => serving.quiet p' there bearer' (read found)

end Serving

/-! ### Runs -/

def Rtnl.InRange : Rtnl → Prop
  | .adding newMap | .deleting _ _ (some newMap) | .cleaning (some newMap)
  | .freeing (some newMap) => newMap.mqIdx < maxMqNum
  | _ => True

structure Kept (dev : Device) (world : World) : Prop where
  tidy : Tidy world.qos
  serving : Serving dev world.qos world.qos.flowHead
  inRange : world.rtnl.InRange

theorem Kept.of_init : Kept dev start where
  tidy := Tidy.of_init
  serving := by
    refine ⟨Routed.of_init, ?_, ?_⟩
    · simp [Runs, start, QosInfo.init]
    · simp [Quiet, start, QosInfo.init]
  inRange := trivial

theorem Kept.step {move : Move} (kept : Kept dev world) (orderly : Orderly dev world move)
    (taken : step dev world move = some world') : Kept dev world' := by
  have tidy := kept.tidy
  have serving := kept.serving
  have inRange := kept.inRange
  have tidy' : Tidy world'.qos := tidy.step orderly.careful taken
  have withQos {result : Option QosInfo}
      (changed : world.withQos result = some world')
      (keeps : ∀ qos', result = some qos' →
        Serving dev qos' world.qos.flowHead ∧ qos'.flowHead = world.qos.flowHead) :
      Kept dev world' := by
    obtain ⟨qos', done, rfl⟩ := Option.map_eq_some_iff.mp changed
    obtain ⟨served, flowHead⟩ := keeps qos' done
    refine ⟨tidy', ?_, inRange⟩
    dsimp only
    rwa [flowHead]
  cases move with
  | activate newMap =>
    simp only [Qos.step] at taken
    split at taken
    · split at taken
      · cases taken
        exact kept
      · rename_i inside
        cases taken
        exact ⟨tidy, serving, Nat.lt_of_not_le inside⟩
    · cases taken
  | deactivate flowId ipType =>
    simp only [Qos.step] at taken
    split at taken
    · cases taken
      exact ⟨tidy, serving, trivial⟩
    · cases taken
  | addLocked itmAllocated allocated =>
    simp only [Qos.step] at taken
    split at taken
    · rename_i newMap adding
      simp only [Orderly, adding] at orderly
      rw [adding] at inRange
      obtain ⟨⟨qos', added⟩, adds, taken⟩ := Option.bind_eq_some_iff.mp taken
      have served := serving.activated tidy inRange orderly.1 orderly.2.1 orderly.2.2 adds
      cases added with
      | done =>
        cases taken
        exact ⟨tidy', served, trivial⟩
      | again =>
        cases taken
        exact ⟨tidy', served, inRange⟩
      | failed =>
        cases taken
        exact ⟨tidy', served, trivial⟩
    · cases taken
  | delLocked =>
    simp only [Qos.step] at taken
    split at taken
    · rename_i flowId ipType after deleting
      rw [deleting] at inRange
      obtain ⟨qos', deletes, taken⟩ := Option.bind_eq_some_iff.mp taken
      cases taken
      refine ⟨tidy', serving.deactivated tidy deletes, ?_⟩
      cases after with
      | none => trivial
      | some newMap => exact inRange
    · cases taken
  | cleanQuit =>
    simp only [Qos.step] at taken
    split at taken
    · rename_i after cleaning
      rw [cleaning] at inRange
      split at taken
      · cases taken
        refine ⟨tidy, serving, ?_⟩
        cases after with
        | none => trivial
        | some newMap => exact inRange
      · obtain ⟨qos', quits, taken⟩ := Option.bind_eq_some_iff.mp taken
        obtain ⟨bearer, found, rfl⟩ := modify_some quits
        cases taken
        refine ⟨tidy', serving.of_bearer found rfl rfl rfl rfl, ?_⟩
        cases after with
        | none => trivial
        | some newMap => exact inRange
    · cases taken
  | cleanFree =>
    simp only [Qos.step] at taken
    split at taken
    · rename_i after freeing
      rw [freeing] at inRange
      obtain ⟨p, removed, taken⟩ := Option.bind_eq_some_iff.mp taken
      obtain ⟨bearer, found, taken⟩ := Option.bind_eq_some_iff.mp taken
      split at taken
      · cases taken
      · cases taken
        refine ⟨tidy', serving.free (tidy.aside p removed).1, ?_⟩
        cases after with
        | none => trivial
        | some newMap => exact inRange
    · cases taken
  | flowStatus info ancillary isQuery ignoreGrant allocated =>
    apply withQos taken
    intro qos' done
    exact serving.of_burstFlowControl tidy.linked orderly done
  | txLinkStatus txStatus bearerId =>
    apply withQos taken
    intro qos' done
    exact ⟨serving.of_updateTxLinkStatus done, (SameShape.of_updateTxLinkStatus done).flowHead⟩
  | send ipType mark len =>
    apply withQos taken
    intro qos' done
    refine ⟨serving.of_burstCheck ?_ done, (SameShape.of_burstCheck done).flowHead⟩
    intro itm member p points
    obtain ⟨p', _, points', there, -⟩ := tidy.linked.pointed itm member
    rw [points] at points'
    cases points'
    exact there
  | watchdogCalled p =>
    obtain ⟨bearer, found, taken⟩ := Option.bind_eq_some_iff.mp taken
    split at taken
    · apply withQos taken
      intro qos' done
      obtain ⟨bearer', found', rfl⟩ := modify_some done
      exact ⟨serving.of_bearer found' rfl rfl rfl rfl, rfl⟩
    · cases taken
  | watchdogFn p =>
    obtain ⟨bearer, found, taken⟩ := Option.bind_eq_some_iff.mp taken
    split at taken
    · apply withQos taken
      intro qos' done
      exact ⟨serving.of_watchdogFn orderly done, (SameShape.of_watchdogFn done).flowHead⟩
    · cases taken
  | enableAllFlows =>
    apply withQos taken
    intro qos' done
    exact ⟨serving.of_enableAllFlows (fun _ there => there) done,
      (SameShape.of_enableAllFlows done).flowHead⟩
  | preparePsBearers =>
    apply withQos taken
    intro qos' done
    exact ⟨serving.of_preparePsBearers (fun _ there => there) done,
      (SameShape.of_preparePsBearers done).flowHead⟩

structure Opened (dev : Device) (qos : QosInfo) : Prop where
  data : ∀ p ∈ qos.bearerHead, ∀ bearer, qos.bearers p = some bearer → ∀ i < maxMqNum,
    i < dev.numTxQueues → (qos.mq i).bearer = some p →
      (qos.running i = true ↔ bearer.grantSize ≠ 0)
  off : ∀ p ∈ qos.bearerHead, ∀ bearer, qos.bearers p = some bearer → bearer.txOff = true →
    bearer.grantSize = 0
  reopened : ∀ p ∈ qos.bearerHead, ∀ bearer, qos.bearers p = some bearer →
    bearer.txOff = false → bearer.ratSwitch = false → ∀ info : FlowStatus,
      info.bearerId = bearer.bearerId → info.bearerId ≠ 0xFF → info.numBytes ≠ 0 →
        ∀ ancillary allocated qos',
          qos.burstFlowControl dev info ancillary false false allocated = some qos' →
            ∀ i < maxMqNum, i < dev.numTxQueues → (qos.mq i).bearer = some p →
              qos'.running i = true

theorem grantSize_updateGrant {info : FlowStatus} {ancillary : Ancillary}
    (found : qos.bearers p = some bearer) (on : bearer.txOff = false)
    (settled : bearer.ratSwitch = false)
    (done : qos.updateGrant dev p info ancillary false = some qos') :
    ∃ bearer', qos'.bearers p = some bearer' ∧ bearer'.grantSize = info.numBytes := by
  obtain ⟨itm, found', done⟩ := Option.bind_eq_some_iff.mp done
  rw [found] at found'
  cases found'
  rw [if_neg (by simp [settled])] at done
  dsimp only at done
  rw [if_neg (by simp [Bearer.txOff_noteRatSwitch, on])] at done
  obtain ⟨granted, changed, done⟩ := Option.bind_eq_some_iff.mp done
  have marked : (qos.markLowLatency info (bearer.noteRatSwitch info ancillary)).bearers p =
      some bearer := by
    unfold QosInfo.markLowLatency
    split <;> exact found
  have found' := modify_found marked changed
  have offer : (((bearer.noteRatSwitch info ancillary).switchLowLatency info).offered dev info
      false).1 = info.numBytes := by
    simp [Bearer.offered]
  split at done
  · exact ⟨_, control_found found' done, (Bearer.grantSize_granted ..).trans offer⟩
  · cases done
    exact ⟨_, found', (Bearer.grantSize_granted ..).trans offer⟩

theorem LinkedTo.searchBearers_of_mem (linked : LinkedTo qos flows none)
    (there : p ∈ qos.bearerHead) (found : qos.bearers p = some bearer) {named : Option Nat}
    (search : qos.getBearerMap bearer.bearerId = some named) : named = some p := by
  cases named with
  | none => exact absurd rfl (searchBearers_none search p there bearer found)
  | some p' =>
    obtain ⟨there', bearer', found', name⟩ := searchBearers_some search
    rw [linked.distinct p' there' p there bearer' bearer found' found name]

theorem Kept.opened (kept : Kept dev world) : Opened dev world.qos where
  data := fun p _ bearer found i inside queue his =>
    kept.serving.runs i inside queue p his bearer found
  off := kept.serving.quiet
  reopened := by
    intro p there bearer found on settled info name single some_bytes ancillary allocated qos'
      done i inside queue his
    have served := (kept.serving.of_burstFlowControl kept.tidy.linked
      (fun all => absurd all.1 single) done).1
    unfold QosInfo.burstFlowControl at done
    rw [if_neg (by simp)] at done
    simp only [Bool.false_eq_true, if_false, if_neg single] at done
    obtain ⟨named, search, done⟩ := Option.bind_eq_some_iff.mp done
    rw [name] at search
    cases kept.tidy.linked.searchBearers_of_mem there found search
    obtain ⟨bearer', found', grant⟩ := grantSize_updateGrant found on settled done
    rw [← (SameShape.of_updateGrant done).mq] at his
    apply (served.runs i inside queue p his bearer' found').mpr
    rwa [grant]

theorem opened_of_reachable
    (reached : Reachable Initial (StepOf (step dev) (Orderly dev)) world) :
    Opened dev world.qos := by
  have kept : Kept dev world := by
    induction reached with
    | start initial =>
      cases initial
      exact Kept.of_init
    | next _ taken ih =>
      obtain ⟨move, orderly, taken⟩ := taken
      exact ih.step orderly taken
  exact kept.opened

/-! A bearer uses up its grant, a query with nothing left starts its watchdog, and the
transmission is turned off before the watchdog expires. -/

def grantedMoves : List Move :=
  boundMoves ++ [.send 4 7 20480,
    .flowStatus { bearerId := 1, numBytes := 100 } {} false false true]

def recoveredMoves : List Move :=
  boundMoves ++ [.send 4 7 100,
    .flowStatus { bearerId := 1, numBytes := 100, rxBytesValid := true } {} true false true,
    .txLinkStatus false 1, .watchdogCalled 0, .watchdogFn 0]

theorem grantedMoves_run : (play (step modem) (Orderly modem) start grantedMoves).isSome := by
  decide +kernel

def granted : World := (play (step modem) (Orderly modem) start grantedMoves).get grantedMoves_run

theorem granted_opened : granted.qos.running 1 = true ∧ Opened modem granted.qos :=
  ⟨by decide +kernel,
    opened_of_reachable (play_reachable (.start start_initial) grantedMoves_run)⟩

theorem recoveredMoves_run :
    (play (step modem) (fun _ _ => True) start recoveredMoves).isSome := by
  decide +kernel

def recovered : World :=
  (play (step modem) (fun _ _ => True) start recoveredMoves).get recoveredMoves_run

/-- The watchdog gives a grant to the bearer and opens its queue while its transmission is off. -/
theorem recovered_not_opened :
    Reachable Initial (StepOf (step modem) fun _ _ => True) recovered ∧
      ¬ Opened modem recovered.qos ∧ recovered.qos.running 1 = true := by
  refine ⟨play_reachable (.start start_initial) recoveredMoves_run, ?_, by decide +kernel⟩
  intro opened
  have there : 0 ∈ recovered.qos.bearerHead := by decide +kernel
  have spent : (recovered.qos.bearers 0).any (fun bearer =>
      bearer.txOff && bearer.grantSize != 0) = true := by decide +kernel
  cases found : recovered.qos.bearers 0 with
  | none =>
    rw [found] at spent
    cases spent
  | some bearer =>
    rw [found, Option.any_some, Bool.and_eq_true, bne_iff_ne] at spent
    exact spent.2 (opened.off 0 there bearer found spent.1)

end VendorModules.Qos
