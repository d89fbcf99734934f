import VendorModules.IpaNat.Dispatch
import VendorModules.IpaNat.Keeping

namespace VendorModules.IpaNat

open VendorModules.Lib

/-! Triggers nest three deep at most: the depth the state machine is given is
enough. -/

theorem dispatch_congr {callbacks callbacks' : NatiState → NatiTrigger → Nati Status}
    {trigger : NatiTrigger} {world : World}
    (same : ∀ world', world'.obj = world.obj →
      callbacks world.obj.currState trigger world' =
        callbacks' world.obj.currState trigger world') :
    dispatch callbacks trigger world = dispatch callbacks' trigger world := by
  have called : ∀ world', world'.obj = world.obj →
      (do callbacks (← get).obj.currState trigger : Nati Status) world' =
        (do callbacks' (← get).obj.currState trigger : Nati Status) world' := by
    intro world' obj
    simp only [bind_apply, get_apply, obj]
    exact same world' obj
  have voted : ∀ vote world', world'.obj = world.obj →
      withVote vote (do callbacks (← get).obj.currState trigger) world' =
        withVote vote (do callbacks' (← get).obj.currState trigger) world' := by
    intro vote world' obj
    cases vote with
    | false => exact called world' obj
    | true =>
      have inner := called (ask .clockVote world').2 obj
      simp only [withVote, if_true]
      rw [bind_apply, bind_apply]
      cases (ask .clockVote world').1 with
      | false => rfl
      | true =>
        simp only [if_true]
        rw [bind_apply, inner]
        rfl
  have blind : Blind fun world' => world'.obj = world.obj :=
    fun _ _ obj _ same => obj.trans same
  have taken := blind.takeMutex_keeps world rfl
  rw [dispatch_apply, dispatch_apply]
  cases (takeMutex world).1 with
  | error errno => rfl
  | ok => exact congrArg (fun result => giveMutex result.2) (voted _ _ taken)

variable {sizing : TableSizing}

theorem goto_deep (n : Nat) {focus : NatiTrigger}
    (goto : focus = .gotoDdr ∨ focus = .gotoSram) :
    ipaNatiStatemachAt sizing (n + 1) focus = ipaNatiStatemachAt sizing 1 focus := by
  funext world
  refine dispatch_congr fun world' _ => ?_
  generalize world.obj.currState = state
  rcases goto with rfl | rfl
  · cases state <;> rfl
  · cases state <;> rfl

theorem smSwitch_deep (n : Nat) {focus : NatiTrigger}
    (goto : focus = .gotoDdr ∨ focus = .gotoSram) (dst : MemIn)
    (srcHdl dstHdl : NatiObj → Nat) :
    smSwitch (ipaNatiStatemachAt sizing (n + 1)) focus dst srcHdl dstHdl =
      smSwitch (ipaNatiStatemachAt sizing 1) focus dst srcHdl dstHdl := by
  rw [smSwitch, goto_deep n goto, smSwitch]

theorem tblSwitch_deep (n : Nat) :
    ipaNatiStatemachAt sizing (n + 2) .tblSwitch =
      ipaNatiStatemachAt sizing 2 .tblSwitch := by
  funext world
  refine dispatch_congr fun world' _ => ?_
  generalize world.obj.currState = state
  cases state with
  | hybrid => exact congrFun (smSwitch_deep n (Or.inl rfl) ..) world'
  | hybridDdr => exact congrFun (smSwitch_deep n (Or.inr rfl) ..) world'
  | _ => rfl

theorem addRule_deep (n tblHdl : Nat) (clntRule : NatIpv4Rule) {world : World}
    (inDdr : world.obj.currState = .hybridDdr) :
    ipaNatiStatemachAt sizing (n + 1) (.addRule tblHdl clntRule) world =
      ipaNatiStatemachAt sizing 1 (.addRule tblHdl clntRule) world := by
  refine dispatch_congr fun world' obj => ?_
  rw [inDdr]
  have stays : Keeps (fun world => world.obj.currState = .hybridDdr) (do
      smAddRuleToTbl (← hybridTblHdl tblHdl) clntRule) := by
    refine Keeps.bind (Keeps.get.bind fun _ => (Keeps.pure _).ite (Keeps.pure _))
      fun hdl => Keeps.bind (fun _ same => same) fun _ =>
        Keeps.bind (fun _ same => same) fun _ => Keeps.ite ?_ (Keeps.pure _)
    exact Keeps.bind (fun _ same => same) fun _ => Keeps.pure _
  have state := stays world' ((congrArg NatiObj.currState obj).trans inDdr)
  change smAddRuleHybrid _ tblHdl clntRule world' =
    smAddRuleHybrid _ tblHdl clntRule world'
  simp only [smAddRuleHybrid, bind_apply] at state ⊢
  generalize smAddRuleToTbl _ clntRule _ = added at state ⊢
  obtain ⟨ret, world''⟩ := added
  cases ret with
  | ok ruleHdl => rfl
  | error errno =>
    have noSwitch : ¬(world''.obj.currState = .hybrid ∧
        (!world''.obj.holdState) = true) := by
      rintro ⟨hybrid, -⟩
      cases state.symm.trans hybrid
    simp only [get_bind_apply, ite_apply, if_neg noSwitch]

theorem addTable_deep (n : Nat) (publicIpAddr : BitVec 32) (entries : Nat)
    (memType : Option String) {world : World}
    (started : world.obj.currState ≠ .null) :
    ipaNatiStatemachAt sizing (n + 2) (.addTable publicIpAddr entries memType)
        world =
      ipaNatiStatemachAt sizing 2 (.addTable publicIpAddr entries memType)
        world := by
  refine dispatch_congr fun world' _ => ?_
  generalize world.obj.currState = state at started
  cases state with
  | null => exact absurd rfl started
  | hybrid =>
    change smAddSramAndDdrTbl _ _ _ _ world' = smAddSramAndDdrTbl _ _ _ _ world'
    rw [smAddSramAndDdrTbl, goto_deep n (Or.inr rfl), smAddSramAndDdrTbl]
  | _ => rfl

theorem memTypeStrToState_ne_null (memType : Option String) :
    memTypeStrToState memType ≠ .null := by
  unfold memTypeStrToState
  split <;> simp

theorem ipaNatiStatemach_deep (n : Nat) (trigger : NatiTrigger) :
    ipaNatiStatemachAt sizing (n + 3) trigger = ipaNatiStatemach sizing trigger := by
  funext world
  refine dispatch_congr fun world' _ => ?_
  generalize world.obj.currState = state
  have switched : ipaNatiStatemachAt sizing (n + 2) .tblSwitch =
      ipaNatiStatemachAt sizing 2 .tblSwitch := tblSwitch_deep n
  have switchedSame : ∀ focus, focus = .gotoDdr ∨ focus = .gotoSram →
      ∀ dst srcHdl dstHdl,
        smSwitch (ipaNatiStatemachAt sizing (n + 2)) focus dst srcHdl dstHdl =
          smSwitch (ipaNatiStatemachAt sizing 2) focus dst srcHdl dstHdl :=
    fun focus goto dst srcHdl dstHdl =>
      (smSwitch_deep (n + 1) goto dst srcHdl dstHdl).trans
        (smSwitch_deep 1 goto dst srcHdl dstHdl).symm
  have added : ∀ tblHdl clntRule,
      smAddRuleHybrid (ipaNatiStatemachAt sizing (n + 2)) tblHdl clntRule =
        smAddRuleHybrid (ipaNatiStatemachAt sizing 2) tblHdl clntRule := by
    intro tblHdl clntRule
    have again : (do
        modifyObj fun obj => obj.setState .hybridDdr
        ipaNatiStatemachAt sizing (n + 2) (.addRule tblHdl clntRule)) = (do
        modifyObj fun obj => obj.setState .hybridDdr
        ipaNatiStatemachAt sizing 2 (.addRule tblHdl clntRule)) := by
      funext world
      exact (addRule_deep (n + 1) tblHdl clntRule rfl).trans
        (addRule_deep 1 tblHdl clntRule rfl).symm
    rw [smAddRuleHybrid, switched, again, smAddRuleHybrid]
  have deleted : ∀ tblHdl ruleHdl,
      smDelRuleHybrid (ipaNatiStatemachAt sizing (n + 2)) tblHdl ruleHdl =
        smDelRuleHybrid (ipaNatiStatemachAt sizing 2) tblHdl ruleHdl := by
    intro tblHdl ruleHdl
    rw [smDelRuleHybrid, switched, smDelRuleHybrid]
  cases trigger with
  | addTable ip entries memType =>
    cases state with
    | null =>
      refine addTable_deep n ip entries memType ?_
      simp only [NatiObj.setState]
      split_ifs with held
      · exact held.2
      · exact memTypeStrToState_ne_null memType
    | hybrid =>
      change smAddSramAndDdrTbl _ _ _ _ world' =
        smAddSramAndDdrTbl _ _ _ _ world'
      rw [smAddSramAndDdrTbl, goto_deep (n + 1) (Or.inr rfl),
        ← goto_deep 1 (Or.inr rfl), smAddSramAndDdrTbl]
    | _ => simp only [stateMachTbl]
  | addRule tblHdl clntRule =>
    cases state with
    | hybrid => exact congrFun (added tblHdl clntRule) world'
    | hybridDdr => exact congrFun (added tblHdl clntRule) world'
    | _ => simp only [stateMachTbl]
  | delRule tblHdl ruleHdl =>
    cases state with
    | hybrid => exact congrFun (deleted tblHdl ruleHdl) world'
    | hybridDdr => exact congrFun (deleted tblHdl ruleHdl) world'
    | _ => simp only [stateMachTbl]
  | tblSwitch =>
    cases state with
    | hybrid => exact congrFun (switchedSame _ (Or.inl rfl) ..) world'
    | hybridDdr => exact congrFun (switchedSame _ (Or.inr rfl) ..) world'
    | _ => simp only [stateMachTbl]
  | _ => cases state <;> simp only [stateMachTbl]

end VendorModules.IpaNat
