import VendorModules.Voter.Election

namespace VendorModules.Voter

open Lib

def Move.Succeeds : Move → Prop
  | .vote _ _ _ _ _ _ rc => rc = 0
  | .voteOverride _ _ _ _ rc => rc = 0
  | .rerunElection _ rc => rc = 0
  | .forceActiveWrite _ rc => rc = 0
  | .forceValWrite _ => True
  | .getClientVote _ _ => True

instance : DecidablePred Move.Succeeds := fun move => by
  cases move <;> simp only [Move.Succeeds] <;> infer_instance

/-- The force value stays while it is in force, and no one overrides with the value that
stands for no override. -/
def Move.Plain (votable : Votable) : Move → Prop
  | .voteOverride _ enabled val _ _ =>
    ¬ (votable.forceActive = false ∧ enabled = true ∧ val = -EINVAL)
  | .forceValWrite _ => votable.forceActive = false
  | _ => True

instance (votable : Votable) : DecidablePred (Move.Plain votable) := fun move => by
  cases move <;> simp only [Move.Plain] <;> infer_instance

def Move.RerunsOverridden (votable : Votable) (move : Move) : Prop :=
  (∃ step rc, move = .rerunElection step rc) ∧
    votable.forceActive = false ∧ votable.overrideResult ≠ -EINVAL

def Votable.Shadowed (votable : Votable) : Prop :=
  votable.forceActive = true ∨ votable.overrideResult ≠ -EINVAL

/-- What an operation whose callback succeeds reports: a call passes the effective result
and names the effective client, and without a call the effective result is as before. -/
structure Reports (cfg : Config) (votable : Votable) (move : Move) (outcome : Outcome) :
    Prop where
  called : ∀ call, outcome.call = some call →
    call.effectiveResult = outcome.votable.getEffectiveResult ∧
      (¬ move.RerunsOverridden votable →
        call.effectiveClient = outcome.votable.getEffectiveClient)
  silent : outcome.call = none → cfg.callback = true →
    outcome.votable.getEffectiveResult = votable.getEffectiveResult ∧
      (outcome.votable.getEffectiveClient = votable.getEffectiveClient ∨
        ¬ votable.Shadowed ∧
          ∃ clientStr enabled val step allocated checks rc,
            move = .vote clientStr enabled val step allocated checks rc)
  uncalled : cfg.callback = false → outcome.call = none

variable {cfg : Config} {votable : Votable}

section Getters

theorem getEffectiveResult_congr {votable' : Votable}
    (active : votable'.forceActive = votable.forceActive)
    (force : votable'.forceVal = votable.forceVal)
    (override : votable'.overrideResult = votable.overrideResult)
    (result : votable'.effectiveResult = votable.effectiveResult ∨ votable.Shadowed) :
    votable'.getEffectiveResult = votable.getEffectiveResult := by
  simp only [Votable.getEffectiveResult, active, force, override]
  rcases result with result | shadowed | overridden
  · rw [result]
  · rw [shadowed]
    rfl
  · simp [overridden]

theorem getEffectiveClient_of_shadowed {votable' : Votable}
    (active : votable'.forceActive = votable.forceActive)
    (override : votable'.overrideResult = votable.overrideResult)
    (client : votable'.overrideClient = votable.overrideClient)
    (shadowed : votable.Shadowed) :
    votable'.getEffectiveClient = votable.getEffectiveClient := by
  simp only [Votable.getEffectiveClient, active, override, client]
  rcases shadowed with shadowed | overridden
  · rw [shadowed]
    rfl
  · simp [overridden]

theorem getEffectiveResult_of_not_shadowed (open' : ¬ votable.Shadowed) :
    votable.getEffectiveResult = votable.effectiveResult := by
  simp only [Votable.Shadowed, not_or, Bool.not_eq_true, not_not] at open'
  simp [Votable.getEffectiveResult, open']

theorem getEffectiveClient_of_not_shadowed (open' : ¬ votable.Shadowed) :
    votable.getEffectiveClient = votable.getClientStr votable.effectiveClientId := by
  simp only [Votable.Shadowed, not_or, Bool.not_eq_true, not_not] at open'
  simp [Votable.getEffectiveClient, open']

end Getters

section InRange

def InRange (votable : Votable) : Prop :=
  ∀ i, votable.effectiveClientId = some i → i < votable.clients.length

theorem getClientId_le (clients : List Client) (clientStr : String) (allocated : Bool) :
    clients.length ≤ (getClientId clients clientStr allocated).1.length := by
  unfold getClientId
  split
  · exact Nat.le_refl _
  · split_ifs <;> simp

theorem getClientStr_getClientId (inRange : InRange votable) (clientStr : String)
    (allocated : Bool) :
    (votable.addClient clientStr allocated).getClientStr votable.effectiveClientId =
      votable.getClientStr votable.effectiveClientId := by
  simp only [Votable.getClientStr, Votable.addClient]
  cases effective : votable.effectiveClientId with
  | none => rfl
  | some i =>
    have inside := inRange i effective
    simp only [Option.bind_some]
    unfold getClientId
    split
    · rfl
    · split_ifs
      · rw [List.getElem?_append_left inside]
      · rfl
      · rfl

theorem InRange.addClient (inRange : InRange votable) (clientStr : String)
    (allocated : Bool) : InRange (votable.addClient clientStr allocated) :=
  fun i effective => Nat.lt_of_lt_of_le (inRange i effective)
    (getClientId_le votable.clients clientStr allocated)

theorem elect_inRange {clients : List Client} {clientId i : Nat}
    (voter : clientId < clients.length)
    (elected : (elect cfg clients clientId none).2 = some i) : i < clients.length := by
  by_cases type : cfg.type = .voteSetAny
  · simp only [elect, type, voteSetAny, Option.some.injEq] at elected
    exact elected ▸ voter
  · rw [elect_eq type] at elected
    obtain ⟨client, foremost, -⟩ := (ballot_scanned clients).held i elected
    exact (List.getElem?_eq_some_iff.mp foremost.here).1

end InRange

section Operations

variable {move : Move}

theorem Reports.of_call {outcome : Outcome} {call : Call} (callback : cfg.callback = true)
    (made : outcome.call = some call)
    (result : call.effectiveResult = outcome.votable.getEffectiveResult)
    (client : ¬ move.RerunsOverridden votable →
      call.effectiveClient = outcome.votable.getEffectiveClient) :
    Reports cfg votable move outcome where
  called call' same := by
    rw [made, Option.some.injEq] at same
    exact same ▸ ⟨result, client⟩
  silent none := by simp [made] at none
  uncalled none := by simp [none] at callback

theorem Reports.of_no_callback {outcome : Outcome} (callback : ¬ cfg.callback = true)
    (silent : outcome.call = none) : Reports cfg votable move outcome where
  called call made := by simp [silent] at made
  silent _ called := absurd called callback
  uncalled _ := silent

theorem Reports.of_silent {outcome : Outcome} (silent : outcome.call = none)
    (result : outcome.votable.getEffectiveResult = votable.getEffectiveResult)
    (client : outcome.votable.getEffectiveClient = votable.getEffectiveClient) :
    Reports cfg votable move outcome where
  called call made := by simp [silent] at made
  silent _ _ := ⟨result, .inl client⟩
  uncalled _ := silent

theorem Reports.of_vote {outcome : Outcome} (silent : outcome.call = none)
    (active : outcome.votable.forceActive = votable.forceActive)
    (force : outcome.votable.forceVal = votable.forceVal)
    (override : outcome.votable.overrideResult = votable.overrideResult)
    (client : outcome.votable.overrideClient = votable.overrideClient)
    (result : outcome.votable.effectiveResult = votable.effectiveResult ∨ votable.Shadowed)
    {clientStr : String} {enabled : Bool} {val : Int32} {step allocated : Bool}
    {checks : List Int32} {rc' : Int32} :
    Reports cfg votable (.vote clientStr enabled val step allocated checks rc') outcome where
  called call made := by simp [silent] at made
  silent _ _ := by
    refine ⟨getEffectiveResult_congr active force override result, ?_⟩
    by_cases shadowed : votable.Shadowed
    · exact .inl (getEffectiveClient_of_shadowed active override client shadowed)
    · exact .inr ⟨shadowed, _, _, _, _, _, _, _, rfl⟩
  uncalled _ := silent

theorem settle_reports (clients : List Client) (elected : Int32 × Option Nat) (step : Bool)
    (checked rc : Int32) {clientStr : String} {enabled : Bool} {val : Int32}
    {allocated : Bool} {checks : List Int32} {rc' : Int32} :
    Reports cfg votable (.vote clientStr enabled val step allocated checks rc')
      (Votable.settle cfg { votable with clients := clients } elected step checked rc) := by
  unfold Votable.settle
  split_ifs with changed shown moved
  · -- the callback is called with what was elected
    simp only [Bool.and_eq_true, Bool.not_eq_true', beq_iff_eq] at shown
    obtain ⟨⟨callback, active⟩, override⟩ := shown
    have open' : ¬ votable.Shadowed := by simp [Votable.Shadowed, active, override]
    refine .of_call callback rfl ?_ fun _ => ?_
    · refine Eq.symm (getEffectiveResult_of_not_shadowed ?_)
      exact open'
    · refine Eq.symm (getEffectiveClient_of_not_shadowed ?_)
      exact open'
  · by_cases callback : cfg.callback = true
    · refine .of_vote ?_ ?_ ?_ ?_ ?_ (.inr ?_)
      any_goals rfl
      simp only [callback, Bool.true_and, Bool.and_eq_true, Bool.not_eq_true', beq_iff_eq,
        not_and_or, Bool.not_eq_false] at shown
      exact shown
    · exact .of_no_callback callback rfl
  · refine .of_vote ?_ ?_ ?_ ?_ ?_ (.inl ?_) <;> rfl
  · refine .of_vote ?_ ?_ ?_ ?_ ?_ (.inl ?_) <;> rfl

theorem addClient_reports (inRange : InRange votable) (clientStr : String)
    (allocated : Bool) (rc : Int32) :
    Reports cfg votable move
      { votable := votable.addClient clientStr allocated, call := none, rc := rc } := by
  refine .of_silent rfl (getEffectiveResult_congr rfl rfl rfl (.inl rfl)) ?_
  by_cases shadowed : votable.Shadowed
  · exact getEffectiveClient_of_shadowed rfl rfl rfl shadowed
  · rw [getEffectiveClient_of_not_shadowed shadowed,
      getEffectiveClient_of_not_shadowed
        (show ¬ (votable.addClient clientStr allocated).Shadowed from shadowed)]
    exact getClientStr_getClientId inRange clientStr allocated

theorem voteOverride_reports {overrideClient : String} {enabled : Bool} {val : Int32}
    {step : Bool} {outcome : Outcome}
    (plain : Move.Plain votable (.voteOverride overrideClient enabled val step 0))
    (taken : votable.voteOverride cfg overrideClient enabled val step 0 = some outcome) :
    Reports cfg votable (.voteOverride overrideClient enabled val step 0) outcome := by
  simp only [Votable.voteOverride, ↓reduceIte] at taken
  by_cases active : votable.forceActive = true
  · rw [if_pos active] at taken
    cases taken
    refine .of_silent rfl ?_ ?_
    · simp [Votable.getEffectiveResult, active]
    · simp [Votable.getEffectiveClient, active]
  · rw [if_neg active] at taken
    by_cases callback : cfg.callback = true
    · rw [if_neg (by simp [callback])] at taken
      by_cases enabled' : enabled = true
      · rw [if_pos enabled'] at taken
        cases taken
        have overridden : val ≠ -EINVAL := fun same =>
          plain ⟨by simpa using active, enabled', same⟩
        refine .of_call callback rfl ?_ fun _ => ?_
        · simp [Votable.getEffectiveResult, active, overridden]
        · simp [Votable.getEffectiveClient, active, overridden]
      · rw [if_neg enabled'] at taken
        cases taken
        refine .of_call callback rfl ?_ fun _ => ?_
        · simp [Votable.getEffectiveResult, active]
        · simp [Votable.getEffectiveClient, Votable.getClientStr, active]
    · rw [if_pos (by simpa using callback)] at taken
      cases taken

theorem rerunElection_reports (step : Bool) (rc : Int32) :
    Reports cfg votable (.rerunElection step rc) (votable.rerunElection cfg step rc) := by
  unfold Votable.rerunElection
  split_ifs with callback active
  · exact .of_no_callback (by simpa using callback) rfl
  · refine .of_call (by simpa using callback) rfl ?_ fun _ => ?_
    · simp [Votable.getEffectiveResult, active]
    · simp [Votable.getEffectiveClient, active]
  · refine .of_call (by simpa using callback) rfl rfl fun shown => ?_
    have open' : ¬ votable.Shadowed := by
      rintro (forced | overridden)
      · exact active forced
      · exact shown ⟨⟨step, rc, rfl⟩, by simpa using active, overridden⟩
    exact (getEffectiveClient_of_not_shadowed open').symm

theorem forceActiveWrite_reports (val : UInt32) (rc : Int32) :
    Reports cfg votable (.forceActiveWrite val rc) (votable.forceActiveWrite cfg val rc) := by
  simp only [Votable.forceActiveWrite]
  split_ifs with callback active overridden
  · exact .of_no_callback (by simpa using callback) rfl
  all_goals
    refine .of_call (by simpa using callback) rfl ?_ fun _ => ?_
    · simp_all [Votable.getEffectiveResult]
    · simp_all [Votable.getEffectiveClient, Votable.getClientStr]

theorem forceValWrite_reports {val : UInt32}
    (plain : Move.Plain votable (.forceValWrite val)) :
    Reports cfg votable (.forceValWrite val) (votable.forceValWrite val) := by
  have active : votable.forceActive = false := plain
  refine .of_silent rfl ?_ ?_
  · simp [Votable.getEffectiveResult, Votable.forceValWrite, active]
  · simp [Votable.getEffectiveClient, Votable.getClientStr, Votable.forceValWrite, active]

theorem operate_reports (inRange : InRange votable) {outcome : Outcome}
    (succeeds : move.Succeeds) (plain : move.Plain votable)
    (taken : votable.operate cfg move = some outcome) : Reports cfg votable move outcome := by
  cases move with
  | vote clientStr enabled val step allocated checks rc =>
    simp only [Votable.operate, Option.some.injEq] at taken
    subst taken
    rcases votable.vote_cases cfg clientStr enabled val step allocated checks rc with
      ⟨rc', ignored⟩ | ⟨clientId, vote, checked, -, held⟩
    · rw [ignored]
      exact addClient_reports inRange clientStr allocated rc'
    · rw [held]
      exact settle_reports _ _ step checked rc
  | voteOverride overrideClient enabled val step rc =>
    have same : rc = 0 := succeeds
    subst same
    exact voteOverride_reports plain taken
  | rerunElection step rc =>
    simp only [Votable.operate, Option.some.injEq] at taken
    exact taken ▸ rerunElection_reports step rc
  | forceActiveWrite val rc =>
    simp only [Votable.operate, Option.some.injEq] at taken
    exact taken ▸ forceActiveWrite_reports val rc
  | forceValWrite val =>
    simp only [Votable.operate, Option.some.injEq] at taken
    exact taken ▸ forceValWrite_reports plain
  | getClientVote clientStr allocated =>
    simp only [Votable.operate, Votable.getClientVote, Option.some.injEq] at taken
    subst taken
    split
    · exact addClient_reports inRange clientStr allocated _
    · split <;> exact addClient_reports inRange clientStr allocated _

theorem InRange.operate (inRange : InRange votable) {outcome : Outcome}
    (taken : votable.operate cfg move = some outcome) : InRange outcome.votable := by
  cases move with
  | vote clientStr enabled val step allocated checks rc =>
    simp only [Votable.operate, Option.some.injEq] at taken
    subst taken
    rcases votable.vote_cases cfg clientStr enabled val step allocated checks rc with
      ⟨rc', ignored⟩ | ⟨clientId, vote, checked, inside, held⟩
    · rw [ignored]
      exact inRange.addClient clientStr allocated
    · rw [held]
      intro i effective
      rw [settle_effectiveClientId] at effective
      rw [settle_clients]
      exact elect_inRange (by simpa [Votable.storeVote] using inside) effective
  | voteOverride overrideClient enabled val step rc =>
    simp only [Votable.operate, Votable.voteOverride] at taken
    split_ifs at taken <;> cases taken <;> exact inRange
  | rerunElection step rc =>
    simp only [Votable.operate, Votable.rerunElection, Option.some.injEq] at taken
    subst taken
    split_ifs <;> exact inRange
  | forceActiveWrite val rc =>
    simp only [Votable.operate, Votable.forceActiveWrite, Option.some.injEq] at taken
    subst taken
    split_ifs <;> exact inRange
  | forceValWrite val =>
    simp only [Votable.operate, Votable.forceValWrite, Option.some.injEq] at taken
    subst taken
    exact inRange
  | getClientVote clientStr allocated =>
    simp only [Votable.operate, Votable.getClientVote, Option.some.injEq] at taken
    subst taken
    split
    · exact inRange.addClient clientStr allocated
    · split <;> exact inRange.addClient clientStr allocated

end Operations

def Allowed (served : Served) (move : Move) : Prop :=
  move.Succeeds ∧ move.Plain served.votable

instance (served : Served) : DecidablePred (Allowed served) := fun _ => instDecidableAnd

structure Passed (cfg : Config) (served : Served) : Prop where
  inRange : InRange served.votable
  passed : ∀ call, served.lastCall = some call →
    cfg.callback = true ∧ call.effectiveResult = served.votable.getEffectiveResult

theorem Passed.operate {served : Served} (passed : Passed cfg served) {move : Move}
    {outcome : Outcome} (allowed : Allowed served move)
    (taken : served.votable.operate cfg move = some outcome) :
    Passed cfg { votable := outcome.votable, lastCall := outcome.call.or served.lastCall } where
  inRange := passed.inRange.operate taken
  passed call last := by
    have reports := operate_reports passed.inRange allowed.1 allowed.2 taken
    cases made : outcome.call with
    | none =>
      rw [made, Option.none_or] at last
      obtain ⟨callback, same⟩ := passed.passed call last
      exact ⟨callback, same.trans (reports.silent made callback).1.symm⟩
    | some made' =>
      rw [made, Option.some_or, Option.some.injEq] at last
      subst last
      refine ⟨?_, (reports.called made' made).1⟩
      by_contra without
      rw [reports.uncalled (by simpa using without)] at made
      cases made

theorem passed_of_reachable {served : Served}
    (reached : Reachable (· = .initial cfg) (StepOf (Served.step cfg) Allowed) served) :
    Passed cfg served := by
  induction reached with
  | start initial =>
    subst initial
    exact ⟨fun _ none => (nomatch none), fun _ none => (nomatch none)⟩
  | next _ taken ih =>
    obtain ⟨move, allowed, stepped⟩ := taken
    simp only [Served.step, Option.map_eq_some_iff] at stepped
    obtain ⟨outcome, operated, rfl⟩ := stepped
    exact ih.operate allowed operated

/-- After every operation the last call passed the effective result; one that makes a call
names the effective client, and one that makes none leaves both, but for a vote's client. -/
theorem lastCall_effectiveResult {served : Served}
    (reached : Reachable (· = .initial cfg) (StepOf (Served.step cfg) Allowed) served) :
    (∀ call, served.lastCall = some call →
      call.effectiveResult = served.votable.getEffectiveResult) ∧
    ∀ move outcome, Allowed served move → served.votable.operate cfg move = some outcome →
      Reports cfg served.votable move outcome :=
  ⟨fun call last => ((passed_of_reachable reached).passed call last).2,
    fun _ _ allowed taken =>
      operate_reports (passed_of_reachable reached).inRange allowed.1 allowed.2 taken⟩

section Sample

abbrev sharedVote : List Move :=
  [.vote "USER_VOTER" true 500 false true [] 0, .vote "JEITA_VOTER" true 500 false true [] 0,
    .vote "USER_VOTER" false 0 false true [] 0]

theorem sharedVote_passed :
    ∃ served, Reachable (· = .initial sampleConfig)
        (StepOf (Served.step sampleConfig) Allowed) served ∧
      served.lastCall = some ⟨500, some "USER_VOTER", false⟩ ∧
      (∀ call, served.lastCall = some call →
        call.effectiveResult = served.votable.getEffectiveResult) := by
  have start : Reachable (· = .initial sampleConfig)
      (StepOf (Served.step sampleConfig) Allowed) (.initial sampleConfig) := .start rfl
  have reached := play_reachable start
    (show (play (Served.step sampleConfig) Allowed (.initial sampleConfig) sharedVote).isSome
      by decide)
  exact ⟨_, reached, by decide, (lastCall_effectiveResult reached).1⟩

/-- The client last named is no longer the effective one. -/
theorem sharedVote_renamed :
    ∃ served, Reachable (· = .initial sampleConfig)
        (StepOf (Served.step sampleConfig) fun _ move => move.Succeeds) served ∧
      served.lastCall = some ⟨500, some "USER_VOTER", false⟩ ∧
      served.votable.getEffectiveClient = some "JEITA_VOTER" := by
  have start : Reachable (· = .initial sampleConfig)
      (StepOf (Served.step sampleConfig) fun _ move => move.Succeeds)
      (.initial sampleConfig) := .start rfl
  have reached := play_reachable start
    (show (play (Served.step sampleConfig) (fun _ move => move.Succeeds)
      (.initial sampleConfig) sharedVote).isSome by decide)
  exact ⟨_, reached, by decide, by decide⟩

end Sample

end VendorModules.Voter
