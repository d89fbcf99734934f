import VendorModules.ChgCpa.Arbiter
import VendorModules.Lib.Transition

namespace VendorModules.ChgCpa

open VendorModules.Lib

/-! Which requests of the clients have been answered by a grant, and which have not. -/

structure CpaRun where
  cpa : Cpa
  unanswered : Finset Protocol

namespace Cpa

variable {cfg : Config} {cpa cpa' : Cpa} {present : Bool} {type : Protocol}

/-! ### What each piece does to the current protocol and to the requests -/

/-- The current protocol gives way to none, or to a requested and enabled one where nothing but
BC1.2, or PD for PPS, is in its way. -/
def Gives (cpa cpa' : Cpa) : Prop :=
  cpa'.currentProtocolType = cpa.currentProtocolType ∨ cpa'.currentProtocolType = none ∨
    ∃ type, cpa'.currentProtocolType = some type ∧ type ∈ cpa.protocolToBeSwitched ∧
      type ∉ cpa.protocolDisableMask ∧
      (cpa.currentProtocolType = none ∨ cpa.currentProtocolType = some .bc12 ∨
        (cpa.currentProtocolType = some .pd ∧ type = .pps))

structure Stays (cpa cpa' : Cpa) : Prop where
  current : cpa'.currentProtocolType = cpa.currentProtocolType ∨ cpa'.currentProtocolType = none
  requested : cpa.protocolToBeSwitched ⊆ cpa'.protocolToBeSwitched

namespace Stays

theorem of_same (current : cpa'.currentProtocolType = cpa.currentProtocolType)
    (requested : cpa'.protocolToBeSwitched = cpa.protocolToBeSwitched) : cpa.Stays cpa' :=
  ⟨Or.inl current, requested ▸ Finset.Subset.refl _⟩

theorem of_ended (current : cpa'.currentProtocolType = none)
    (requested : cpa'.protocolToBeSwitched = cpa.protocolToBeSwitched) : cpa.Stays cpa' :=
  ⟨Or.inr current, requested ▸ Finset.Subset.refl _⟩

theorem gives (stays : cpa.Stays cpa') : cpa.Gives cpa' := stays.current.imp_right Or.inl

end Stays

theorem protocolIdentifyRequest_stays (cpa : Cpa) (protocol : Finset Protocol) (present : Bool) :
    cpa.Stays (cpa.protocolIdentifyRequest protocol present).1 := by
  unfold protocolIdentifyRequest
  dsimp only
  split_ifs
  · exact .of_same rfl rfl
  all_goals exact ⟨Or.inl rfl, Finset.subset_union_left⟩

theorem requested_of_plugged {protocol : Finset Protocol} (plugged : ¬ cpa.Unplugged present) :
    protocol ⊆ (cpa.protocolIdentifyRequest protocol present).1.protocolToBeSwitched := by
  rw [protocolIdentifyRequest, if_neg plugged]
  dsimp only
  split_ifs <;> exact Finset.subset_union_right

theorem requestDefault_stays (cfg : Config) (cpa : Cpa) (present : Bool) :
    cpa.Stays (cpa.requestDefault cfg present) := by
  have stays := protocolIdentifyRequest_stays { cpa with defReq := true } cfg.defaultProtocolType
    present
  unfold requestDefault
  dsimp only
  split <;> exact ⟨stays.current, stays.requested⟩

theorem requestLockVoteCallback_stays (cpa : Cpa) : cpa.Stays cpa.requestLockVoteCallback := by
  unfold requestLockVoteCallback
  dsimp only
  split_ifs <;> exact .of_same rfl rfl

theorem voteReqLock_stays {voter : Voter} {enabled : Bool}
    (taken : cpa.voteReqLock voter enabled = some cpa') : cpa.Stays cpa' := by
  unfold voteReqLock at taken
  split at taken
  · cases taken
    have stays := requestLockVoteCallback_stays
      { cpa with
        reqLockVotes :=
          if enabled then insert voter cpa.reqLockVotes else cpa.reqLockVotes.erase voter }
    exact ⟨stays.current, stays.requested⟩
  · cases taken

theorem requestUnlocked_stays (taken : cpa.requestUnlocked cfg present = some cpa') :
    cpa.Stays cpa' := by
  obtain ⟨pc, -, rfl⟩ := Option.map_eq_some_iff.mp taken
  cases pc with
  | requestPending =>
    have stays := protocolIdentifyRequest_stays { cpa with voteCallback := none }
      cpa.protocolToBeSwitched present
    exact ⟨stays.current, stays.requested⟩
  | requestDefault =>
    have stays := requestDefault_stays cfg { cpa with voteCallback := none } present
    exact ⟨stays.current, stays.requested⟩

/-- What `oplus_cpa_protocol_switch_work` grants. -/
def granted (cfg : Config) (cpa : Cpa) (adapter : Adapter) : Option Protocol :=
  (cpa.switchChoice cfg adapter).filter fun type => ¬ cpa.Occupied {type}

theorem switchChoice_mem {adapter : Adapter} (choice : cpa.switchChoice cfg adapter = some type) :
    type ∈ cpa.protocolToBeSwitched ∧ type ∉ cpa.protocolDisableMask := by
  unfold switchChoice at choice
  split at choice
  · cases choice
  · obtain ⟨highest, -⟩ := Option.filter_eq_some_iff.mp choice
    exact Finset.mem_sdiff.mp (mem_of_highestPriority highest)

theorem identifyRequest_of_occupied (cpa : Cpa) (occupied : cpa.Occupied {type}) :
    cpa.identifyRequest type = none := if_pos occupied

theorem identifyRequest_of_free (cpa : Cpa) (free : ¬ cpa.Occupied {type}) :
    ∃ cpa', cpa.identifyRequest type = some cpa' ∧ cpa'.currentProtocolType = some type ∧
      cpa'.protocolToBeSwitched = cpa.protocolToBeSwitched := by
  rw [identifyRequest, if_neg free]
  split
  · rename_i already
    exact ⟨_, rfl, already, rfl⟩
  · exact ⟨_, rfl, rfl, rfl⟩

theorem protocolSwitch_cases {adapter : Adapter}
    (taken : cpa.protocolSwitch cfg adapter = some cpa') :
    cpa'.protocolToBeSwitched = cpa.protocolToBeSwitched ∧
      ((cpa'.currentProtocolType = cpa.currentProtocolType ∧ cpa.granted cfg adapter = none) ∨
        ∃ type, cpa.granted cfg adapter = some type ∧ cpa'.currentProtocolType = some type) := by
  unfold protocolSwitch at taken
  split at taken
  · dsimp only at taken
    rw [show switchChoice cfg { cpa with
        protocolSwitchWork := { cpa.protocolSwitchWork with pending := false } } adapter =
        cpa.switchChoice cfg adapter from rfl] at taken
    cases choice : cpa.switchChoice cfg adapter with
    | none =>
      rw [choice] at taken
      cases taken
      exact ⟨rfl, Or.inl ⟨rfl, by rw [granted, choice, Option.filter_none]⟩⟩
    | some type =>
      rw [choice] at taken
      dsimp only at taken
      by_cases occupied : cpa.Occupied {type}
      · rw [identifyRequest_of_occupied
          { cpa with
            protocolSwitchWork := { cpa.protocolSwitchWork with pending := false }
            protocolSwitchTimeoutWork := false } occupied] at taken
        cases taken
        refine ⟨rfl, Or.inl ⟨rfl, ?_⟩⟩
        rw [granted, choice, Option.filter_some, if_neg (by simp [occupied])]
      · obtain ⟨next, identified, current, requested⟩ := identifyRequest_of_free
          { cpa with
            protocolSwitchWork := { cpa.protocolSwitchWork with pending := false }
            protocolSwitchTimeoutWork := false } occupied
        rw [identified] at taken
        cases taken
        refine ⟨requested, Or.inr ⟨type, ?_, current⟩⟩
        rw [granted, choice, Option.filter_some, if_pos (by simp [occupied])]
  · cases taken

theorem granted_gives {adapter : Adapter} (isGranted : cpa.granted cfg adapter = some type)
    (current : cpa'.currentProtocolType = some type) : cpa.Gives cpa' := by
  obtain ⟨choice, free⟩ := Option.filter_eq_some_iff.mp isGranted
  obtain ⟨requested, enabled⟩ := switchChoice_mem choice
  refine Or.inr (Or.inr ⟨type, current, requested, enabled, ?_⟩)
  have free := of_decide_eq_true free
  by_cases nothing : cpa.currentProtocolType = none
  · exact Or.inl nothing
  · by_cases basic : cpa.currentProtocolType = some .bc12
    · exact Or.inr (Or.inl basic)
    · have allowed : isAllowSwitch cpa.currentProtocolType {type} := by
        by_contra refused
        exact free ⟨nothing, basic, refused⟩
      exact Or.inr (Or.inr ⟨allowed.1, Finset.singleton_injective allowed.2⟩)

theorem switchPublished_stays {ok : Bool} (taken : cpa.switchPublished ok = some cpa') :
    cpa.Stays cpa' := by
  unfold switchPublished at taken
  split at taken
  · split at taken
    · cases taken
      exact .of_same rfl rfl
    · cases taken
      exact .of_ended rfl rfl
  · cases taken

theorem switchArm_stays (taken : cpa.switchArm = some cpa') : cpa.Stays cpa' := by
  unfold switchArm at taken
  split at taken
  · cases taken
    exact .of_same rfl rfl
  · cases taken

theorem switchClear_cases (taken : cpa.switchClear = some cpa') :
    ∃ type, cpa.protocolSwitchWork.running = some (.clearing type) ∧
      cpa'.protocolToBeSwitched = cpa.protocolToBeSwitched.erase type ∧
      cpa'.currentProtocolType = cpa.currentProtocolType := by
  unfold switchClear at taken
  split at taken
  · rename_i type running
    cases taken
    exact ⟨type, running, rfl, rfl⟩
  · cases taken

theorem switchRetry_stays (taken : cpa.switchRetry present = some cpa') : cpa.Stays cpa' := by
  unfold switchRetry at taken
  split at taken
  · cases taken
    have stays := protocolIdentifyRequest_stays
      { cpa with protocolSwitchWork := { cpa.protocolSwitchWork with running := none } }
      cpa.protocolToBeSwitched present
    exact ⟨stays.current, stays.requested⟩
  · cases taken

theorem switchEnded_stays (taken : cpa.switchEnded present = some cpa') : cpa.Stays cpa' := by
  unfold switchEnded at taken
  split at taken
  · cases taken
    have stays := protocolIdentifyRequest_stays
      { cpa with switchEndWork := { cpa.switchEndWork with running := none } }
      cpa.protocolToBeSwitched present
    exact ⟨stays.current, stays.requested⟩
  · cases taken

theorem chgTypeChange_stays {wiredType : UsbType}
    (taken : cpa.chgTypeChange cfg wiredType = some cpa') : cpa.Stays cpa' := by
  unfold chgTypeChange at taken
  split at taken
  · dsimp only at taken
    split_ifs at taken <;> cases taken <;> exact .of_same rfl rfl
  · cases taken

theorem chgTypeRequest_stays (taken : cpa.chgTypeRequest cfg present = some cpa') :
    cpa.Stays cpa' := by
  unfold chgTypeRequest at taken
  dsimp only at taken
  split at taken
  · cases taken
    have stays := protocolIdentifyRequest_stays cpa {.pps} present
    exact ⟨stays.current, stays.requested⟩
  · cases taken
    have stays := requestDefault_stays cfg cpa present
    exact ⟨stays.current, stays.requested⟩
  · cases taken

theorem chgTypeClose_stays (taken : cpa.chgTypeClose = some cpa') : cpa.Stays cpa' := by
  unfold chgTypeClose at taken
  split at taken
  · cases taken
    exact .of_same rfl rfl
  · cases taken

theorem wiredOffline_stays (taken : cpa.wiredOffline = some cpa') : cpa.Stays cpa' := by
  unfold wiredOffline at taken
  split at taken
  · dsimp only at taken
    split at taken
    · cases taken
      exact .of_same rfl rfl
    · cases taken
      exact .of_ended rfl rfl
  · cases taken

theorem wiredOfflineReset_ends (taken : cpa.wiredOfflineReset = some cpa') :
    cpa'.currentProtocolType = cpa.currentProtocolType := by
  unfold wiredOfflineReset at taken
  split at taken
  · cases taken
    rfl
  · cases taken

theorem wiredOnlineStart_stays {plugoutPassed : Bool}
    (taken : cpa.wiredOnlineStart cfg plugoutPassed = some cpa') : cpa.Stays cpa' := by
  unfold wiredOnlineStart at taken
  split at taken
  · cases taken
    split_ifs <;> exact .of_same rfl rfl
  · cases taken

theorem wiredOnlineFinish_stays {online : Bool} {realChgType : UsbType}
    (taken : cpa.wiredOnlineFinish online realChgType = some cpa') : cpa.Stays cpa' := by
  unfold wiredOnlineFinish at taken
  split at taken
  · dsimp only at taken
    split_ifs at taken <;> cases taken <;> exact .of_same rfl rfl
  · cases taken

theorem onlineItem_stays (cfg : Config) (cpa : Cpa) (online : Bool) :
    cpa.Stays (cpa.onlineItem cfg online) := by
  unfold onlineItem
  dsimp only
  split_ifs <;> exact .of_same rfl rfl

theorem ccDetectItem_stays (cfg : Config) (cpa : Cpa) (notPlug : Bool) :
    cpa.Stays (cpa.ccDetectItem cfg notPlug) := by
  unfold ccDetectItem
  dsimp only
  split_ifs <;> exact .of_same rfl rfl

theorem connectStatusItem_stays (cpa : Cpa) (status : Bool) :
    cpa.Stays (cpa.connectStatusItem status) := by
  unfold connectStatusItem
  dsimp only
  split_ifs <;> exact .of_same rfl rfl

theorem stateReadyItem_stays (cpa : Cpa) : cpa.Stays cpa.stateReadyItem := by
  unfold stateReadyItem
  dsimp only
  split_ifs <;> exact .of_same rfl rfl

theorem step_cases {move : Move} (taken : cpa.step cfg move = some cpa') :
    cpa.Stays cpa' ∨ (∃ adapter, move = .protocolSwitch adapter) ∨ move = .switchClear ∨
      move = .wiredOfflineReset := by
  cases move with
  | protocolSwitch adapter => exact Or.inr (Or.inl ⟨adapter, rfl⟩)
  | switchClear => exact Or.inr (Or.inr (Or.inl rfl))
  | wiredOfflineReset => exact Or.inr (Or.inr (Or.inr rfl))
  | request type present =>
    cases taken
    exact Or.inl (protocolIdentifyRequest_stays cpa {requestedType cfg type} present)
  | vote client enabled => exact Or.inl (voteReqLock_stays taken)
  | requestUnlocked present => exact Or.inl (requestUnlocked_stays taken)
  | protocolReady type =>
    cases taken
    unfold protocolReady
    dsimp only
    split <;> exact Or.inl (.of_same rfl rfl)
  | protocolReadyTimeout =>
    obtain ⟨-, ⟨⟩⟩ := Option.ite_none_right_eq_some.mp taken
    exact Or.inl (.of_same rfl rfl)
  | readyVote =>
    obtain ⟨-, taken⟩ := Option.ite_none_right_eq_some.mp taken
    have stays := voteReqLock_stays taken
    exact Or.inl ⟨stays.current, stays.requested⟩
  | switchPublished ok => exact Or.inl (switchPublished_stays taken)
  | switchArm => exact Or.inl (switchArm_stays taken)
  | switchRetry present => exact Or.inl (switchRetry_stays taken)
  | protocolSwitchTimeout =>
    obtain ⟨-, ⟨⟩⟩ := Option.ite_none_right_eq_some.mp taken
    exact Or.inl (.of_same rfl rfl)
  | switchStart type =>
    cases taken
    unfold switchStart
    split <;> exact Or.inl (.of_same rfl rfl)
  | switchStarted =>
    obtain ⟨-, ⟨⟩⟩ := Option.ite_none_right_eq_some.mp taken
    exact Or.inl (.of_same rfl rfl)
  | switchEnd type =>
    cases taken
    unfold switchEnd
    split <;> exact Or.inl (.of_same rfl rfl)
  | switchEnding =>
    obtain ⟨-, ⟨⟩⟩ := Option.ite_none_right_eq_some.mp taken
    exact Or.inl (.of_ended rfl rfl)
  | switchEnded present => exact Or.inl (switchEnded_stays taken)
  | protocolDisable type =>
    cases taken
    exact Or.inl (.of_same rfl rfl)
  | protocolEnable type =>
    cases taken
    exact Or.inl (.of_same rfl rfl)
  | protocolSetPower type powerMw =>
    cases taken
    exact Or.inl (.of_same rfl rfl)
  | chgTypeChange wiredType => exact Or.inl (chgTypeChange_stays taken)
  | chgTypeRequest present => exact Or.inl (chgTypeRequest_stays taken)
  | chgTypeClose => exact Or.inl (chgTypeClose_stays taken)
  | wiredOffline => exact Or.inl (wiredOffline_stays taken)
  | wiredOnlineStart plugoutPassed => exact Or.inl (wiredOnlineStart_stays taken)
  | wiredOnlineFinish online realChgType => exact Or.inl (wiredOnlineFinish_stays taken)
  | onlineItem online =>
    cases taken
    exact Or.inl (onlineItem_stays cfg cpa online)
  | realChgTypeItem =>
    cases taken
    exact Or.inl (.of_same rfl rfl)
  | ccDetectItem notPlug =>
    cases taken
    exact Or.inl (ccDetectItem_stays cfg cpa notPlug)
  | presentItem present =>
    cases taken
    exact Or.inl (.of_same rfl rfl)
  | connectStatusItem status =>
    cases taken
    exact Or.inl (connectStatusItem_stays cpa status)
  | stateReadyItem =>
    cases taken
    exact Or.inl (stateReadyItem_stays cpa)

theorem step_gives {move : Move} (taken : cpa.step cfg move = some cpa') : cpa.Gives cpa' := by
  rcases step_cases taken with stays | ⟨adapter, rfl⟩ | rfl | rfl
  · exact stays.gives
  · obtain ⟨-, ⟨same, -⟩ | ⟨type, isGranted, current⟩⟩ := protocolSwitch_cases taken
    · exact Or.inl same
    · exact granted_gives isGranted current
  · obtain ⟨type, -, -, same⟩ := switchClear_cases taken
    exact Or.inl same
  · exact Or.inl (wiredOfflineReset_ends taken)

end Cpa

/-! ### Runs -/

namespace CpaRun

variable {cfg : Config} {run run' : CpaRun} {move : Move}

/-- A request that is taken waits for an answer, a grant answers, and the reset after the cable has
gone drops what is left. -/
def answered (cfg : Config) (run : CpaRun) : Move → Finset Protocol
  | .request type present =>
    if run.cpa.Unplugged present then run.unanswered
    else insert (Cpa.requestedType cfg type) run.unanswered
  | .protocolSwitch adapter =>
    match run.cpa.granted cfg adapter with
    | some type => run.unanswered.erase type
    | none => run.unanswered
  | .wiredOfflineReset => ∅
  | _ => run.unanswered

def step (cfg : Config) (run : CpaRun) (move : Move) : Option CpaRun :=
  (run.cpa.step cfg move).map fun cpa => ⟨cpa, run.answered cfg move⟩

/-- After `oplus_cpa_probe`. -/
def Start (run : CpaRun) : Prop := ∃ table, run = ⟨Cpa.probe table, ∅⟩

/-- The bit of a protocol is not cleared when a client has asked for the protocol again since it
was granted. -/
def Careful (run : CpaRun) : Move → Prop
  | .switchClear => ∀ type ∈ run.unanswered,
      run.cpa.protocolSwitchWork.running ≠ some (.clearing type)
  | _ => True

instance : Decidable (Careful run move) := by
  unfold Careful
  split <;> infer_instance

structure Sound (cfg : Config) (run : CpaRun) : Prop where
  gives : ∀ move cpa', run.cpa.step cfg move = some cpa' → run.cpa.Gives cpa'
  kept : run.unanswered ⊆ run.cpa.protocolToBeSwitched
  cleared : ∀ move cpa', Careful run move → run.cpa.step cfg move = some cpa' →
    ∀ type ∈ run.cpa.protocolToBeSwitched, type ∉ cpa'.protocolToBeSwitched →
      move = .wiredOfflineReset ∨ type ∉ run.unanswered

theorem answered_subset_of_stays {cpa' : Cpa} (kept : run.unanswered ⊆ run.cpa.protocolToBeSwitched)
    (taken : run.cpa.step cfg move = some cpa') (stays : run.cpa.Stays cpa') :
    run.answered cfg move ⊆ cpa'.protocolToBeSwitched := by
  have still := kept.trans stays.requested
  cases move with
  | request type present =>
    rw [answered]
    split
    · exact still
    · rename_i plugged
      cases taken
      exact Finset.insert_subset
        (Cpa.requested_of_plugged plugged (Finset.mem_singleton_self _)) still
  | protocolSwitch adapter =>
    rw [answered]
    split
    · exact (Finset.erase_subset _ _).trans still
    · exact still
  | wiredOfflineReset => exact Finset.empty_subset _
  | _ => exact still

theorem kept_step (kept : run.unanswered ⊆ run.cpa.protocolToBeSwitched)
    (taken : StepOf (step cfg) Careful run run') :
    run'.unanswered ⊆ run'.cpa.protocolToBeSwitched := by
  obtain ⟨move, careful, taken⟩ := taken
  obtain ⟨cpa', stepped, rfl⟩ := Option.map_eq_some_iff.mp taken
  rcases Cpa.step_cases stepped with stays | ⟨adapter, rfl⟩ | rfl | rfl
  · exact answered_subset_of_stays kept stepped stays
  · obtain ⟨same, -⟩ := Cpa.protocolSwitch_cases stepped
    dsimp only
    rw [same, answered]
    split
    · exact (Finset.erase_subset _ _).trans kept
    · exact kept
  · obtain ⟨type, clearing, erased, -⟩ := Cpa.switchClear_cases stepped
    dsimp only
    rw [erased]
    exact Finset.subset_erase.mpr ⟨kept, fun waits => careful type waits clearing⟩
  · exact Finset.empty_subset _

theorem requests_of_reachable (reached : Reachable Start (StepOf (step cfg) Careful) run) :
    run.Sound cfg where
  gives := fun move cpa' taken => Cpa.step_gives taken
  kept := by
    refine reached.invariant ?_ fun _ _ kept taken => kept_step kept taken
    rintro run ⟨table, rfl⟩
    exact Finset.empty_subset _
  cleared := by
    intro move cpa' careful taken type requested missing
    rcases Cpa.step_cases taken with stays | ⟨adapter, rfl⟩ | rfl | rfl
    · exact absurd (stays.requested requested) missing
    · obtain ⟨same, -⟩ := Cpa.protocolSwitch_cases taken
      exact absurd (same ▸ requested) missing
    · obtain ⟨cleared, clearing, erased, -⟩ := Cpa.switchClear_cases taken
      have isCleared : type = cleared := by
        by_contra apart
        exact missing (erased ▸ Finset.mem_erase.mpr ⟨apart, requested⟩)
      subst isCleared
      exact Or.inr fun waits => careful type waits clearing
    · exact Or.inl rfl

/-! ### A protocol asked for twice -/

def sampleConfig : Config where
  defaultProtocolType := {.bc12, .ufcs}
  protocolSupportedType := {.bc12, .ufcs}
  retentionTopic := false

def sampleTable : List ProtocolInfo :=
  [⟨some .ufcs, 0, 33000⟩, ⟨some .bc12, 10000, 10000⟩]

def sampleStart : CpaRun := ⟨Cpa.probe sampleTable, ∅⟩

def sampleAdapter : Adapter := ⟨.dcp, 0, false, true⟩

def grantMoves : List Move :=
  [.protocolReady .bc12, .protocolReady .ufcs, .readyVote, .requestUnlocked false,
    .protocolSetPower .ufcs 33000, .onlineItem true, .wiredOnlineStart false,
    .wiredOnlineFinish true .dcp, .chgTypeChange .dcp, .chgTypeRequest true, .chgTypeClose,
    .protocolSwitch sampleAdapter, .switchPublished true]

def lostMoves : List Move := grantMoves ++ [.request .ufcs true, .switchArm, .switchClear]

theorem grantMoves_taken :
    (play (step sampleConfig) Careful sampleStart grantMoves).isSome := by
  decide +kernel

theorem sampleGrant_sound :
    ((play (step sampleConfig) Careful sampleStart grantMoves).get grantMoves_taken).Sound
      sampleConfig :=
  requests_of_reachable (play_reachable (.start ⟨sampleTable, rfl⟩) grantMoves_taken)

theorem lostMoves_taken :
    (play (step sampleConfig) (fun _ _ => True) sampleStart lostMoves).isSome := by
  decide +kernel

theorem sampleRequest_lost : ∃ run,
    Reachable Start (StepOf (step sampleConfig) fun _ _ => True) run ∧
      .ufcs ∈ run.unanswered ∧ .ufcs ∉ run.cpa.protocolToBeSwitched :=
  ⟨_, play_reachable (.start ⟨sampleTable, rfl⟩) lostMoves_taken, by decide +kernel⟩

end CpaRun

end VendorModules.ChgCpa
