import VendorModules.IpaNat.Nesting
import VendorModules.IpaNat.Session

namespace VendorModules.IpaNat

open VendorModules.Lib

/-! What a failed switch leaves behind. -/

inductive SwitchRequest
  | trigger (trigger : NatiTrigger)
  | switchTo (nmi : MemIn) (holdState : Bool)

def SwitchRequest.run (sizing : TableSizing) : SwitchRequest → Nati Status
  | .trigger asked => ipaNatiStatemach sizing asked
  | .switchTo nmi holdState => ipaNatSwitchTo sizing nmi holdState

/-! ### The dispatcher's own failures -/

section

variable (trigger : NatiTrigger) (world : World)

def Skipped : Prop :=
  (takeMutex world).1 ≠ .ok () ∨ (clockVoted trigger world).1 = false

def Declined : Prop :=
  (takeMutex world).1 ≠ .ok () ∨
    ((clockVoted trigger world).1 = false ∧
      (giveMutex (clockVoted trigger world).2).1 ≠ .ok ())

/-- The callback of the trigger runs in the world `called`. -/
def Calls (called : World) : Prop :=
  (takeMutex world).1 = .ok () ∧ clockVoted trigger world = (true, called)

end

structure World.SameData (world world' : World) : Prop where
  obj : world'.obj = world.obj
  drv : world'.drv = world.drv

theorem World.SameData.refl (world : World) : world.SameData world := ⟨rfl, rfl⟩

theorem World.SameData.blind (world : World) : Blind world.SameData :=
  fun _ _ obj drv same => ⟨obj.trans same.obj, drv.trans same.drv⟩

section

variable {callbacks : NatiState → NatiTrigger → Nati Status}
  {trigger : NatiTrigger} {world : World}

theorem clockVoted_sameData : world.SameData (clockVoted trigger world).2 := by
  have taken := (World.SameData.blind world).takeMutex_keeps world (.refl world)
  rw [clockVoted]
  split
  · exact (World.SameData.blind world).ask_keeps .clockVote _ taken
  · exact taken

theorem beforeGive_unvoted (unvoted : (clockVoted trigger world).1 = false) :
    beforeGive callbacks trigger world = (clockVoted trigger world).2 := by
  have unfolded : beforeGive callbacks trigger world =
      (withVote (voteRequired (afterTake world).obj trigger)
        (do callbacks (← get).obj.currState trigger) (afterTake world)).2 := rfl
  rw [unfolded]
  simp only [clockVoted] at unvoted ⊢
  cases required : voteRequired (afterTake world).obj trigger with
  | false =>
    rw [required] at unvoted
    cases unvoted
  | true =>
    rw [required, if_pos rfl] at unvoted
    simp only [withVote, if_true, bind_apply, unvoted, Bool.false_eq_true,
      if_false, pure_apply]

theorem dispatch_skipped (skipped : Skipped trigger world) :
    world.SameData (dispatch callbacks trigger world).2 := by
  rw [dispatch_apply]
  cases taken : (takeMutex world).1 with
  | error errno =>
    exact (World.SameData.blind world).takeMutex_keeps world (.refl world)
  | ok =>
    have unvoted := skipped.resolve_left fun failed => failed taken
    simp only [beforeGive_unvoted unvoted]
    exact (World.SameData.blind world).giveMutex_keeps _ clockVoted_sameData

theorem dispatch_declined (declined : Declined trigger world) :
    ∃ errno after, dispatch callbacks trigger world = (.error errno, after) ∧
      world.SameData after := by
  have skipped : Skipped trigger world := declined.imp id And.left
  have same := @dispatch_skipped callbacks _ _ skipped
  have failed : (dispatch callbacks trigger world).1 ≠ .ok () := by
    rw [Ne, dispatch_ok_iff]
    rintro ⟨taken, given⟩
    obtain ⟨unvoted, refused⟩ := declined.resolve_left fun failed => failed taken
    rw [beforeGive_unvoted unvoted] at given
    exact refused given
  cases result : dispatch callbacks trigger world with
  | mk ret after =>
    rw [result] at same failed
    cases ret with
    | ok => exact absurd rfl failed
    | error errno => exact ⟨errno, after, rfl, same⟩

theorem dispatch_sameData {before called : World}
    (calls : Calls trigger world called)
    (same : before.SameData (callbacks called.obj.currState trigger called).2) :
    before.SameData (dispatch callbacks trigger world).2 := by
  obtain ⟨taken, voted⟩ := calls
  rw [dispatch_apply, taken]
  refine (World.SameData.blind before).giveMutex_keeps _ ?_
  rw [beforeGive_voted callbacks trigger world (by rw [voted]), devote, voted]
  split
  · exact (World.SameData.blind before).ask_keeps .clockDevote _ same
  · exact same

end

/-! ### The switch of a request -/

def attemptAdd (tblHdl : Nat) (clntRule : NatIpv4Rule) :
    Nati (Except Errno Nat) := do
  smAddRuleToTbl (← hybridTblHdl tblHdl) clntRule

def attemptDel (tblHdl origRuleHdl : Nat) : Nati Status := do
  let mem := (← get).obj.chooseMemSub
  match ← mapDelOrig2new mem origRuleHdl with
  | .error errno => return .error errno
  | .ok newRuleHdl =>
    let _ ← mapDelNew2orig mem newRuleHdl
    smDelRuleFromTbl (← hybridTblHdl tblHdl) newRuleHdl

theorem smAddRuleHybrid_eq (statemach : NatiTrigger → Nati Status) (tblHdl : Nat)
    (clntRule : NatIpv4Rule) (called : World) :
    smAddRuleHybrid statemach tblHdl clntRule called =
      (do match ← attemptAdd tblHdl clntRule with
        | .ok ruleHdl =>
          let mem := (← get).obj.chooseMemSub
          match ← mapAddOrig2new mem ruleHdl ruleHdl with
          | .error errno => return .error errno
          | .ok () => mapAddNew2orig mem ruleHdl ruleHdl
        | .error errno =>
          let obj := (← get).obj
          if obj.currState = .hybrid ∧ !obj.holdState then
            match ← statemach .tblSwitch with
            | .error errno => return .error errno
            | .ok () =>
              modifyObj fun obj => obj.setState .hybridDdr
              statemach (.addRule tblHdl clntRule)
          else return .error errno : Nati Status) called := rfl

theorem smAddRuleHybrid_failed {statemach : NatiTrigger → Nati Status}
    {tblHdl : Nat} {clntRule : NatIpv4Rule} {called before : World}
    {errno : Errno}
    (failed : attemptAdd tblHdl clntRule called = (.error errno, before))
    (hybrid : before.obj.currState = .hybrid)
    (free : before.obj.holdState = false) :
    smAddRuleHybrid statemach tblHdl clntRule called =
      (do match ← statemach .tblSwitch with
        | .error errno => return .error errno
        | .ok () =>
          modifyObj fun obj => obj.setState .hybridDdr
          statemach (.addRule tblHdl clntRule) : Nati Status) before := by
  rw [smAddRuleHybrid_eq, bind_apply, failed]
  simp only [get_bind_apply, hybrid, free, Bool.not_false, and_self, if_true]

theorem smDelRuleHybrid_deleted {statemach : NatiTrigger → Nati Status}
    {tblHdl origRuleHdl : Nat} {called before : World}
    (deleted : attemptDel tblHdl origRuleHdl called = (.ok (), before))
    (inDdr : before.obj.currState = .hybridDdr)
    (few : (before.obj.totRulesInTable before.obj.chooseMemSub).toNat ≤
      before.obj.backToSramThresh)
    (free : before.obj.holdState = false) :
    smDelRuleHybrid statemach tblHdl origRuleHdl called =
      (do
        match ← statemach .tblSwitch with
        | .ok () => modifyObj fun obj => obj.setState .hybrid
        | .error _ => pure ()
        return .ok () : Nati Status) before := by
  simp only [attemptDel, get_bind_apply] at deleted
  simp only [smDelRuleHybrid, get_bind_apply]
  rw [bind_apply] at deleted ⊢
  generalize mapDelOrig2new _ origRuleHdl called = orig at deleted ⊢
  obtain ⟨_ | newRuleHdl, afterOrig⟩ := orig
  · cases deleted
  · simp only [bind_apply] at deleted ⊢
    rw [deleted]
    simp only [get_bind_apply, inDdr, few, free, Bool.not_false, and_self, if_true]
    rfl

/-- The request, run in `world`, starts a switch in the world `before`. -/
inductive Begins : SwitchRequest → World → World → Prop
  | own {world : World} (hybrid : world.obj.inHybridState = true) :
      Begins (.trigger .tblSwitch) world world
  | asked {nmi : MemIn} {holdState : Bool} {world before : World}
      (taken : takeMutex world = (.ok (), before))
      (started : before.obj.inUnstartedState = false)
      (hybrid : before.obj.inHybridState = true)
      (compatible : before.obj.compatibleNmi4Switch nmi = true) :
      Begins (.switchTo nmi holdState) world before
  | add {tblHdl : Nat} {clntRule : NatIpv4Rule} {world called before : World}
      {errno : Errno} (calls : Calls (.addRule tblHdl clntRule) world called)
      (inSram : called.obj.currState = .hybrid)
      (failed : attemptAdd tblHdl clntRule called = (.error errno, before))
      (hybrid : before.obj.currState = .hybrid)
      (free : before.obj.holdState = false) :
      Begins (.trigger (.addRule tblHdl clntRule)) world before
  | del {tblHdl ruleHdl : Nat} {world called before : World}
      (calls : Calls (.delRule tblHdl ruleHdl) world called)
      (inDdr : called.obj.currState = .hybridDdr)
      (deleted : attemptDel tblHdl ruleHdl called = (.ok (), before))
      (hybridDdr : before.obj.currState = .hybridDdr)
      (few : (before.obj.totRulesInTable before.obj.chooseMemSub).toNat ≤
        before.obj.backToSramThresh)
      (free : before.obj.holdState = false) :
      Begins (.trigger (.delRule tblHdl ruleHdl)) world before

def NatiObj.focus (obj : NatiObj) : NatiTrigger :=
  if obj.currState = .hybrid then .gotoDdr else .gotoSram

/-- No step of the switch that starts in `before` fails: neither those of the
switch itself nor those of the trigger that changes the table in use. -/
def SwitchCompletes (sizing : TableSizing) (before : World) : Prop :=
  CallbackSucceeds (stateMachTbl sizing (ipaNatiStatemachAt sizing 1)) .tblSwitch
    before ∧
  CallbackSucceeds (stateMachTbl sizing (ipaNatiStatemachAt sizing 0))
    before.obj.focus (clockVoted .tblSwitch before).2

def World.denotes (world : World) (origRuleHdl : Nat) : Option NatRule := do
  let newRuleHdl ← (world.obj.mapPairs world.obj.chooseMemSub).orig2new origRuleHdl
  let tbl ← world.drv.cache world.obj.chooseMemSub
  let index ← (tbl.table.getEntry newRuleHdl).toOption
  return tbl.table.entries index

structure Unchanged (before after : World) : Prop where
  state : after.obj.currState = before.obj.currState
  tables : after.drv = before.drv
  counters : after.obj.totRulesInTable = before.obj.totRulesInTable
  maps : after.obj.mapPairs = before.obj.mapPairs

theorem Unchanged.denotes {before after : World}
    (unchanged : Unchanged before after) (origRuleHdl : Nat) :
    after.denotes origRuleHdl = before.denotes origRuleHdl := by
  have mem : after.obj.chooseMemSub = before.obj.chooseMemSub := by
    rw [NatiObj.chooseMemSub, unchanged.state, NatiObj.chooseMemSub]
  rw [World.denotes, mem, unchanged.maps, unchanged.tables, World.denotes]

theorem World.SameData.unchanged {before after : World}
    (same : before.SameData after) : Unchanged before after :=
  ⟨congrArg NatiObj.currState same.obj, same.drv,
    congrArg NatiObj.totRulesInTable same.obj, congrArg NatiObj.mapPairs same.obj⟩

theorem Unchanged.blind (before : World) : Blind (Unchanged before) :=
  fun _ _ obj drv unchanged =>
    ⟨obj ▸ unchanged.state, drv.trans unchanged.tables,
      obj ▸ unchanged.counters, obj ▸ unchanged.maps⟩

def RollsBack (sizing : TableSizing) (before after : World) : Prop :=
  ¬SwitchCompletes sizing before → Unchanged before after ∧
    ∀ origRuleHdl, after.denotes origRuleHdl = before.denotes origRuleHdl

/-- The switch fails while the mutex is taken or the clock voted for, before the
table in use is changed, and the request learns of it if it goes on. -/
def StopsEarly : SwitchRequest → World → Prop
  | .trigger .tblSwitch, before | .switchTo _ _, before =>
    Skipped .tblSwitch before ∨
      Declined before.obj.focus (clockVoted .tblSwitch before).2
  | .trigger _, before => Declined .tblSwitch before

section

variable {sizing : TableSizing} {before : World}

theorem ipaNatiStatemachAt_declined (sizing : TableSizing) (depth : Nat)
    {trigger : NatiTrigger} {world : World} (declined : Declined trigger world) :
    ∃ errno after, ipaNatiStatemachAt sizing (depth + 1) trigger world =
      (.error errno, after) ∧ world.SameData after :=
  dispatch_declined declined

theorem tblSwitch_stopped (sizing : TableSizing) (depth : Nat)
    (hybrid : before.obj.inHybridState = true)
    (early : Skipped .tblSwitch before ∨
      Declined before.obj.focus (clockVoted .tblSwitch before).2) :
    before.SameData (ipaNatiStatemachAt sizing (depth + 2) .tblSwitch before).2 := by
  by_cases skipped : Skipped .tblSwitch before
  · exact dispatch_skipped skipped
  · have declined := early.resolve_left skipped
    rw [Skipped, not_or, not_not] at skipped
    have same := @clockVoted_sameData .tblSwitch before
    have calls : Calls .tblSwitch before (clockVoted .tblSwitch before).2 :=
      ⟨skipped.1, Prod.ext (Bool.eq_true_of_not_eq_false skipped.2) rfl⟩
    have stopped : ∀ dst srcHdl dstHdl, before.SameData
        (smSwitch (ipaNatiStatemachAt sizing (depth + 1)) before.obj.focus dst
          srcHdl dstHdl (clockVoted .tblSwitch before).2).2 := by
      intro dst srcHdl dstHdl
      obtain ⟨errno, after, failed, kept⟩ :=
        ipaNatiStatemachAt_declined sizing depth declined
      rw [smSwitch, get_bind_apply, bind_apply, failed]
      exact ⟨kept.obj.trans same.obj, kept.drv.trans same.drv⟩
    refine dispatch_sameData calls ?_
    rw [same.obj]
    rcases of_decide_eq_true hybrid with state | state
    · have focus : before.obj.focus = .gotoDdr := if_pos state
      rw [focus] at stopped
      rw [state]
      exact stopped .ddr _ _
    · have focus : before.obj.focus = .gotoSram :=
        if_neg (by rw [state]; decide)
      rw [focus] at stopped
      rw [state]
      exact stopped .sram _ _

theorem unchanged_of_stopsEarly (sizing : TableSizing) {request : SwitchRequest} {world : World}
    (begins : Begins request world before) (early : StopsEarly request before) :
    Unchanged before (request.run sizing world).2 := by
  cases begins with
  | own hybrid => exact (tblSwitch_stopped sizing 1 hybrid early).unchanged
  | @asked nmi holdState world before taken started hybrid compatible =>
    have stopped := tblSwitch_stopped sizing 1 hybrid early
    have switched : Unchanged before
        (switchTo sizing nmi holdState before).2 := by
      simp only [switchTo, get_bind_apply, started, Bool.false_eq_true, if_false,
        hybrid, if_true, switchHybrid, compatible, ipaNatiStatemach]
      rw [bind_apply]
      generalize ipaNatiStatemachAt sizing 3 .tblSwitch before = result
        at stopped ⊢
      obtain ⟨_ | _, after⟩ := result
      · exact stopped.unchanged
      · exact ⟨stopped.unchanged.state, stopped.unchanged.tables,
          stopped.unchanged.counters, stopped.unchanged.maps⟩
    rw [SwitchRequest.run, ipaNatSwitchTo, bind_apply, taken]
    exact (Unchanged.blind before).giveMutex_keeps _ switched
  | add calls inSram failed hybrid free =>
    obtain ⟨errno, after, declined, same⟩ :=
      ipaNatiStatemachAt_declined sizing 1 early
    refine (dispatch_sameData calls ?_).unchanged
    rw [inSram]
    change before.SameData (smAddRuleHybrid _ _ _ _).2
    rw [smAddRuleHybrid_failed failed hybrid free, bind_apply, declined]
    exact same
  | del calls inDdr deleted hybridDdr few free =>
    obtain ⟨errno, after, declined, same⟩ :=
      ipaNatiStatemachAt_declined sizing 1 early
    refine (dispatch_sameData calls ?_).unchanged
    rw [inDdr]
    change before.SameData (smDelRuleHybrid _ _ _ _).2
    rw [smDelRuleHybrid_deleted deleted hybridDdr few free, bind_apply, declined]
    exact same

end

/-! ### Runs -/

structure SwitchLog where
  world : World
  switches : List (World × World)

namespace SwitchLog

structure Start (log : SwitchLog) : Prop where
  obj : log.world.obj = NatiObj.initial
  cache : log.world.drv.cache = fun _ => none
  switches : log.switches = []

/-- Clients run requests and change the public addresses, in whatever
environment; `allowed` restricts the switches that are begun. -/
inductive Step (sizing : TableSizing) (allowed : SwitchRequest → World → Prop)
    (log : SwitchLog) : SwitchLog → Prop
  | switch (request : SwitchRequest) (env : Env) {before : World}
      (begins : Begins request (log.world.within env) before)
      (allows : allowed request before) :
      Step sizing allowed log
        ⟨(request.run sizing (log.world.within env)).2,
          (before, (request.run sizing (log.world.within env)).2) ::
            log.switches⟩
  | other (request : SwitchRequest) (env : Env)
      (noSwitch : ∀ before, ¬Begins request (log.world.within env) before) :
      Step sizing allowed log
        ⟨(request.run sizing (log.world.within env)).2, log.switches⟩
  | pdns (pdns : Pdns) :
      Step sizing allowed log
        ⟨{ log.world with drv := { log.world.drv with pdns := pdns } },
          log.switches⟩

def RolledBack (sizing : TableSizing) (log : SwitchLog) : Prop :=
  ∀ before after, (before, after) ∈ log.switches → RollsBack sizing before after

def FailsEarly (sizing : TableSizing) (request : SwitchRequest) (before : World) :
    Prop :=
  ¬SwitchCompletes sizing before → StopsEarly request before

/-- The failed switches of a run are undone as long as they all fail early. -/
theorem rolledBack_of_reachable {sizing : TableSizing} {log : SwitchLog}
    (reached : Reachable Start (Step sizing (FailsEarly sizing)) log) :
    log.RolledBack sizing := by
  have base : ∀ log, Start log → RolledBack sizing log := by
    intro log start before after member
    rw [start.switches] at member
    cases member
  refine reached.invariant base ?_
  intro log log' rolledBack taken
  cases taken with
  | switch request env begins early =>
    intro before after member
    rcases List.mem_cons.mp member with isNew | old
    · obtain ⟨rfl, rfl⟩ := Prod.mk.injEq .. ▸ isNew
      intro fails
      have unchanged := unchanged_of_stopsEarly sizing begins (early fails)
      exact ⟨unchanged, unchanged.denotes⟩
    · exact rolledBack before after old
  | other request env noSwitch => exact rolledBack
  | pdns pdns => exact rolledBack

/-! A run with a switch that fails late, and one with a switch that fails
early. -/

def after (log : SwitchLog) (trigger : NatiTrigger) (env : Env) : World :=
  (ipaNatiStatemach .sample trigger (log.world.within env)).2

def sampleStart : SwitchLog := ⟨NatiSession.sampleStart.world, []⟩

def sampleTables : SwitchLog :=
  ⟨sampleStart.after (.addTable 0x01020304 6 (some "HYBRID")) .allOk, []⟩

def sampleRule : SwitchLog :=
  ⟨sampleTables.after (.addRule (makeTblHdl 1 .sram) (.sample 1)) .allOk, []⟩

def sampleSwitch (env : Env) : SwitchLog :=
  ⟨sampleRule.after .tblSwitch env,
    [(sampleRule.world.within env, sampleRule.after .tblSwitch env)]⟩

theorem sampleSwitch_reachable {allowed : SwitchRequest → World → Prop}
    (env : Env)
    (allows : allowed (.trigger .tblSwitch) (sampleRule.world.within env)) :
    Reachable Start (Step .sample allowed) (sampleSwitch env) := by
  have noSwitch : ∀ before, ¬Begins
      (.trigger (.addRule (makeTblHdl 1 .sram) (.sample 1)))
      (sampleTables.world.within .allOk) before := by
    rintro before begins
    cases begins with
    | add calls inSram failed =>
      have added : (attemptAdd (makeTblHdl 1 .sram) (.sample 1)
          (clockVoted (.addRule (makeTblHdl 1 .sram) (.sample 1))
            (sampleTables.world.within .allOk)).2).1.isOk = true := by
        decide +kernel
      rw [calls.2, failed] at added
      cases added
  refine .next (.next (.next (.start ⟨rfl, rfl, rfl⟩)
    (.other (.trigger (.addTable 0x01020304 6 (some "HYBRID"))) .allOk ?_))
    (.other _ .allOk noSwitch)) (.switch (.trigger .tblSwitch) env (.own ?_) allows)
  · rintro before begins
    cases begins
  · change sampleRule.world.obj.inHybridState = true
    decide +kernel

/-- The mutex cannot be taken for the switch. -/
theorem sampleSwitch_early_rolledBack :
    (sampleSwitch (.failing fun call _ => decide (call = .mutexLock))).RolledBack
      .sample :=
  rolledBack_of_reachable (sampleSwitch_reachable _ fun _ =>
    Or.inl (Or.inl (by decide +kernel)))

/-- The rule cannot be added to the table in DDR, which is the one in use
already. -/
theorem sampleSwitch_late_not_rolledBack :
    ¬∀ (sizing : TableSizing) (log : SwitchLog),
      Reachable Start (Step sizing fun _ _ => True) log → log.RolledBack sizing := by
  intro rollsBack
  let env := Env.failing fun call _ => decide (call = .tableDmaCmd)
  have fails : ¬SwitchCompletes .sample (sampleRule.world.within env) := by
    rintro ⟨⟨-, -, copied⟩, -⟩
    revert copied
    decide +kernel
  obtain ⟨unchanged, -⟩ := rollsBack .sample (sampleSwitch env)
    (sampleSwitch_reachable env trivial) _ _ List.mem_cons_self fails
  have state := unchanged.state
  revert state
  decide +kernel

end SwitchLog

end VendorModules.IpaNat
