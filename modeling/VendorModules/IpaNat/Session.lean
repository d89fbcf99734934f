import VendorModules.Lib.Transition
import VendorModules.IpaNat.Dispatch
import VendorModules.IpaNat.Keeping

namespace VendorModules.IpaNat

open VendorModules.Lib

/-! Everything that clients do with the library, and what a switch between the
tables keeps of their rules. -/

/-- `nati_obj` before the first call. -/
def NatiObj.initial : NatiObj where
  prevState := .null
  currState := .null
  holdState := false
  stateToHold := .null
  ddrTblHdl := 0
  sramTblHdl := 0
  totSlotsInSram := 0
  backToSramThresh := 0
  totRulesInTable := fun _ => 0
  mapPairs := fun _ => NatiMapPair.empty
  swStats := fun _ => ⟨0, 0⟩

def World.within (world : World) (env : Env) : World := { world with env := env }

structure NatiSession where
  world : World
  offered : List NatIpv4Rule

namespace NatiSession

def offer : NatiTrigger → List NatIpv4Rule
  | .addRule _ clntRule => [clntRule]
  | _ => []

structure Start (session : NatiSession) : Prop where
  obj : session.world.obj = NatiObj.initial
  cache : session.world.drv.cache = fun _ => none

variable (sizing : TableSizing)

/-- A client runs a trigger, asks for a memory, or changes the public addresses;
the system answers the calls on the way as it likes. -/
inductive Step (session : NatiSession) : NatiSession → Prop
  | trigger (trigger : NatiTrigger) (env : Env) :
      Step session
        ⟨(ipaNatiStatemach sizing trigger (session.world.within env)).2,
          offer trigger ++ session.offered⟩
  | switchTo (nmi : MemIn) (holdState : Bool) (env : Env) :
      Step session
        ⟨(ipaNatSwitchTo sizing nmi holdState (session.world.within env)).2,
          session.offered⟩
  | pdns (pdns : Pdns) :
      Step session
        ⟨{ session.world with drv := { session.world.drv with pdns := pdns } },
          session.offered⟩

theorem holding_of_reachable {session : NatiSession}
    (reached : Reachable Start (Step sizing) session) :
    session.world.Holding (· ∈ session.offered) := by
  have base : ∀ session, Start session →
      session.world.Holding (· ∈ session.offered) := by
    intro session start
    refine ⟨fun mem tbl found => ?_, ?_, ?_⟩
    · rw [start.cache] at found
      cases found
    · rw [start.obj]
      exact Or.inl rfl
    · rw [start.obj]
      exact Or.inl rfl
  refine reached.invariant base ?_
  intro session session' holding taken
  have grown : ∀ more, session.world.Holding (· ∈ more ++ session.offered) :=
    fun more => ⟨fun mem tbl found => (holding.tables mem tbl found).mono
      fun _ member => List.mem_append_right more member,
      holding.ddrTblHdl, holding.sramTblHdl⟩
  cases taken with
  | trigger trigger env =>
    refine ipaNatiStatemachAt_keeps sizing 3 trigger ?_ _
      ((grown _).congr rfl rfl rfl)
    cases trigger with
    | addRule tblHdl clntRule => exact List.mem_cons_self
    | _ => trivial
  | switchTo nmi holdState env =>
    exact ipaNatSwitchTo_keeps sizing nmi holdState _
      (holding.congr rfl rfl rfl)
  | pdns pdns => exact holding.congr rfl rfl rfl

end NatiSession

/-! ### What a switch keeps -/

/-- The two tables have the same rules: for each rule of one there is exactly one
record of the other that carries it. -/
def SameRules (own : NatIpv4Rule → Prop)
    (carries : NatRule → NatIpv4Rule → Prop) (src dst : Ip4TableCache) : Prop :=
  ∃ f, Set.BijOn f {k | src.table.Live k} {e | dst.table.Live e} ∧
    ∀ k, src.table.Live k → ∃ clntRule, own clntRule ∧
      carries (src.table.entries k) clntRule ∧
      carries (dst.table.entries (f k)) clntRule

/-- The table in use holds the same rules as the other one once the switch is
over, and the switch has not changed it. -/
def SwitchKeepsRules (own : NatIpv4Rule → Prop)
    (carries : NatRule → NatIpv4Rule → Prop) (world world' : World) : Prop :=
  ∃ src dst, world.drv.cache world.obj.chooseMemSub = some src ∧
    world'.drv.cache world.obj.chooseMemSub = some src ∧
    world'.drv.cache world.obj.chooseMemSub.other = some dst ∧
    SameRules own carries src dst

theorem Migrating.sameRules {own : NatIpv4Rule → Prop} {mem : MemIn}
    {src : Ip4TableCache} {world : World}
    (migrating : Migrating own mem src src.table.totTblEnts world) :
    ∃ dst, world.drv.cache mem.other = some dst ∧
      SameRules own NatRule.CarriesRule src dst := by
  obtain ⟨dst, f, found, bij, carry⟩ := migrating.moved
  have all : {k | src.table.Live k ∧ k < src.table.totTblEnts} =
      {k | src.table.Live k} :=
    Set.ext fun k => and_iff_left_of_imp fun live => live.1
  exact ⟨dst, found, f, all ▸ bij, fun k live => carry k live live.1⟩

section Switch

variable {own : NatIpv4Rule → Prop} {sizing : TableSizing}

theorem goto_keeps (sizing : TableSizing) (depth : Nat) {focus : NatiTrigger}
    (goto : focus = .gotoDdr ∨ focus = .gotoSram)
    (cache : MemIn → Option Ip4TableCache) :
    Keeps (fun world => world.drv.cache = cache ∧ world.obj.inHybridState = true)
      (ipaNatiStatemachAt sizing depth focus) := by
  have blind : Blind fun world =>
      world.drv.cache = cache ∧ world.obj.inHybridState = true :=
    fun _ _ obj same holds =>
      ⟨(congrArg NatDrv.cache same).trans holds.1, obj ▸ holds.2⟩
  cases depth with
  | zero => exact Keeps.pure _
  | succ depth =>
    refine blind.dispatch_keeps fun world holds => ?_
    have posted : ∀ (hdl : World → Nat) (state : NatiState),
        state = .hybrid ∨ state = .hybridDdr →
        Keeps (fun world => world.drv.cache = cache ∧
          world.obj.inHybridState = true) (do
          let ret ← natiPostIpv4InitCmd (hdl (← get))
          if ret = .ok () then modifyObj fun obj => obj.setState state
          return ret) := by
      intro hdl state hybrid
      refine Keeps.get.bind fun world =>
        (blind.natiPostIpv4InitCmd_keeps (fun _ _ holds => holds) _).bind fun _ =>
          Keeps.ite (Keeps.bind ?_ fun _ => Keeps.pure _) (Keeps.pure _)
      exact fun world holds => ⟨holds.1, decide_eq_true hybrid⟩
    have ddr := posted (fun world => world.obj.ddrTblHdl) .hybridDdr (Or.inr rfl)
    have sram := posted (fun world => world.obj.sramTblHdl) .hybrid (Or.inl rfl)
    rcases of_decide_eq_true holds.2 with state | state
    · rcases goto with rfl | rfl
      · rw [state]
        exact ddr world holds
      · rw [state]
        exact sram world holds
    · rcases goto with rfl | rfl
      · rw [state]
        exact ddr world holds
      · rw [state]
        exact sram world holds

theorem smSwitch_migrates {depth : Nat} {focus : NatiTrigger}
    (goto : focus = .gotoDdr ∨ focus = .gotoSram) (mem : MemIn)
    {srcHdl dstHdl : NatiObj → Nat}
    (storedSrc : ∀ world : World, world.Holding own →
      StoredTblHdl (srcHdl world.obj) mem)
    (storedDst : ∀ world : World, world.Holding own →
      StoredTblHdl (dstHdl world.obj) mem.other)
    {world : World} (holding : world.Holding own)
    (hybrid : world.obj.inHybridState = true)
    (success : (smSwitch (ipaNatiStatemachAt sizing depth) focus mem.other srcHdl
      dstHdl world).1 = .ok ()) :
    ∃ src, world.drv.cache mem = some src ∧
      Migrating own mem src src.table.totTblEnts
        (smSwitch (ipaNatiStatemachAt sizing depth) focus mem.other srcHdl dstHdl
          world).2 := by
  have plain : focus.From own := by
    rcases goto with rfl | rfl <;> trivial
  have went := ipaNatiStatemachAt_keeps sizing depth focus plain world holding
  have cache := (goto_keeps sizing depth goto world.drv.cache world ⟨rfl, hybrid⟩).1
  simp only [smSwitch, bind_apply, get_apply] at success ⊢
  generalize ipaNatiStatemachAt sizing depth focus world = gone
    at success went cache ⊢
  obtain ⟨ret, next⟩ := gone
  cases ret with
  | error errno => cases success
  | ok =>
    have forgotten : World.Holding own
        { next with obj := next.obj.forget mem.other } :=
      went.congr rfl rfl rfl
    have copied := natiCopyIpv4Tbl_migrate forgotten
      (storedSrc _ forgotten) (storedDst _ forgotten)
    simp only [bind_apply, modifyObj_apply, get_apply, pure_apply]
      at success copied ⊢
    generalize natiCopyIpv4Tbl _ _ migrateRule _ = copy at success copied ⊢
    obtain ⟨ret, last⟩ := copy
    cases ret with
    | error errno => cases success
    | ok =>
      obtain ⟨src, found, migrating⟩ := copied
      exact ⟨src, cache ▸ found,
        migrating.congr rfl (migrating.holding.congr rfl rfl rfl)⟩

theorem dispatch_surroundings {callbacks : NatiState → NatiTrigger → Nati Status}
    {trigger : NatiTrigger} {world : World}
    (success : CallbackSucceeds callbacks trigger world) :
    ∃ before, before.obj = world.obj ∧ before.drv = world.drv ∧
      (callbacks world.obj.currState trigger before).1 = .ok () ∧
      (dispatch callbacks trigger world).2.obj =
        (callbacks world.obj.currState trigger before).2.obj ∧
      (dispatch callbacks trigger world).2.drv =
        (callbacks world.obj.currState trigger before).2.drv := by
  have blind : ∀ first : World, Blind fun world =>
      world.obj = first.obj ∧ world.drv = first.drv :=
    fun _ _ _ obj drv same => ⟨obj.trans same.1, drv.trans same.2⟩
  obtain ⟨taken, voted, called⟩ := success
  have afterTake := (blind world).takeMutex_keeps world ⟨rfl, rfl⟩
  have afterVote : (clockVoted trigger world).2.obj = world.obj ∧
      (clockVoted trigger world).2.drv = world.drv := by
    rw [clockVoted]
    split
    · exact (blind world).ask_keeps .clockVote _ afterTake
    · exact afterTake
  rw [afterVote.1] at called
  refine ⟨_, afterVote.1, afterVote.2, called, ?_⟩
  rw [dispatch_apply, taken, beforeGive_voted callbacks trigger world voted]
  refine (blind _).giveMutex_keeps _ ?_
  rw [devote, afterVote.1]
  split
  · exact ⟨rfl, rfl⟩
  · exact ⟨rfl, rfl⟩

theorem switch_keepsRules {depth : Nat} {world : World}
    (holding : world.Holding own) (hybrid : world.obj.inHybridState = true)
    (success : CallbackSucceeds
      (stateMachTbl sizing (ipaNatiStatemachAt sizing depth)) .tblSwitch world) :
    SwitchKeepsRules own NatRule.CarriesRule world
      (ipaNatiStatemachAt sizing (depth + 1) .tblSwitch world).2 := by
  obtain ⟨before, obj, drv, called, -, after⟩ := dispatch_surroundings success
  have start : before.Holding own := World.Holding.blind _ _ obj drv holding
  have inHybrid : before.obj.inHybridState = true := obj ▸ hybrid
  rw [SwitchKeepsRules, ipaNatiStatemachAt, after, ← drv]
  rcases of_decide_eq_true hybrid with state | state
  · have mem : world.obj.chooseMemSub = .sram := if_pos state
    rw [state] at called ⊢
    obtain ⟨src, found, migrating⟩ := smSwitch_migrates (Or.inl rfl)
      .sram (fun _ holding => holding.sramTblHdl)
      (fun _ holding => holding.ddrTblHdl) start inHybrid called
    obtain ⟨dst, foundDst, same⟩ := migrating.sameRules
    rw [mem]
    exact ⟨src, dst, found, migrating.source, foundDst, same⟩
  · have mem : world.obj.chooseMemSub = .ddr := if_neg (by rw [state]; decide)
    rw [state] at called ⊢
    obtain ⟨src, found, migrating⟩ := smSwitch_migrates (Or.inr rfl)
      .ddr (fun _ holding => holding.ddrTblHdl)
      (fun _ holding => holding.sramTblHdl) start inHybrid called
    obtain ⟨dst, foundDst, same⟩ := migrating.sameRules
    rw [mem]
    exact ⟨src, dst, found, migrating.source, foundDst, same⟩

end Switch

/-- In whatever hybrid state clients have brought the library to, a successful
switch moves exactly their rules over; `carries` says what of a client's rule
comes through. -/
def NatiSession.SwitchesKeep (carries : NatRule → NatIpv4Rule → Prop) : Prop :=
  ∀ (sizing : TableSizing) (session : NatiSession) (depth : Nat) (env : Env),
    Reachable Start (Step sizing) session →
    session.world.obj.inHybridState = true →
    CallbackSucceeds (stateMachTbl sizing (ipaNatiStatemachAt sizing depth))
      .tblSwitch (session.world.within env) →
    SwitchKeepsRules (· ∈ session.offered) carries (session.world.within env)
      (ipaNatiStatemachAt sizing (depth + 1) .tblSwitch
        (session.world.within env)).2

theorem NatiSession.switchesKeep_carriesRule :
    SwitchesKeep NatRule.CarriesRule :=
  fun sizing _ _ _ reached hybrid success =>
    switch_keepsRules ((holding_of_reachable sizing reached).congr rfl rfl rfl)
      hybrid success

/-! ### A rule that is not kept as its client gave it -/

structure NatRule.CarriesAsGiven (rule : NatRule) (clntRule : NatIpv4Rule) :
    Prop where
  privateIp : rule.privateIp = clntRule.privateIp
  privatePort : rule.privatePort = clntRule.privatePort
  publicPort : rule.publicPort = clntRule.publicPort
  pdnIndex : rule.pdnIndex.toNat = clntRule.pdnIndex.toNat
  targetIp : rule.targetIp = clntRule.targetIp
  targetPort : rule.targetPort = clntRule.targetPort
  protocol : rule.protocol = clntRule.protocol
  ucActivationIndex : rule.ucActivationIndex.toNat =
    clntRule.ucActivationIndex.toNat
  srcOnly : rule.srcOnly = clntRule.srcOnly
  dstOnly : rule.dstOnly = clntRule.dstOnly
  redirect : rule.redirect.toNat = clntRule.redirect.toNat
  s : rule.s = clntRule.s
  timeStamp : rule.timeStamp.toNat = clntRule.timeStamp.toNat

namespace NatiSession

def sampleStart : NatiSession where
  world :=
    { obj := NatiObj.initial
      drv := NatDrv.sample fun _ => none
      natMutexInit := false
      out := ⟨0, 0, 0⟩
      env := Env.allOk }
  offered := []

def sampleRule : NatIpv4Rule :=
  { NatIpv4Rule.sample 1 with
    redirect := 1
    timeStamp := 7
    ucActivationIndex := 0x2000 }

def after (session : NatiSession) (trigger : NatiTrigger) : NatiSession :=
  ⟨(ipaNatiStatemach .sample trigger (session.world.within .allOk)).2,
    offer trigger ++ session.offered⟩

def sampleSession : NatiSession :=
  (sampleStart.after (.addTable 0x01020304 6 (some "HYBRID"))).after
    (.addRule (makeTblHdl 1 .sram) sampleRule)

theorem sampleSession_reachable :
    Reachable Start (Step .sample) sampleSession :=
  .next (.next (.start ⟨rfl, rfl⟩) (.trigger _ .allOk)) (.trigger _ .allOk)

theorem sampleSession_hybrid :
    sampleSession.world.obj.inHybridState = true := by
  decide +kernel

theorem sampleSession_switches :
    CallbackSucceeds (stateMachTbl .sample (ipaNatiStatemachAt .sample 2))
      .tblSwitch (sampleSession.world.within .allOk) :=
  ⟨by decide +kernel, by decide +kernel, by decide +kernel⟩

theorem SwitchesKeep.sample {carries : NatRule → NatIpv4Rule → Prop}
    (keep : SwitchesKeep carries) :
    ∃ src, (sampleSession.world.within .allOk).drv.cache .sram = some src ∧
      carries (src.table.entries 2) sampleRule := by
  obtain ⟨src, dst, found, -, -, f, -, carried⟩ :=
    keep .sample sampleSession 2 .allOk sampleSession_reachable
      sampleSession_hybrid sampleSession_switches
  have mem : (sampleSession.world.within .allOk).obj.chooseMemSub = .sram := by
    decide +kernel
  rw [mem] at found
  have live : ((sampleSession.world.within .allOk).drv.cache .sram).any
      (fun tbl => decide (tbl.table.Live 2)) = true := by
    decide +kernel
  rw [found, Option.any_some, decide_eq_true_iff] at live
  obtain ⟨clntRule, offered, carries, -⟩ := carried 2 live
  have given : clntRule = sampleRule := by
    simpa [sampleSession, after, offer, sampleStart] using offered
  exact ⟨src, found, given ▸ carries⟩

/-- Redirection, time stamp and activation index do not come through as the
client gave them. -/
theorem not_switchesKeep_asGiven :
    ¬SwitchesKeep NatRule.CarriesAsGiven ∧
    ¬SwitchesKeep (fun rule clntRule =>
      rule.redirect.toNat = clntRule.redirect.toNat) ∧
    ¬SwitchesKeep (fun rule clntRule =>
      rule.timeStamp.toNat = clntRule.timeStamp.toNat) ∧
    ¬SwitchesKeep fun rule clntRule =>
      rule.ucActivationIndex.toNat = clntRule.ucActivationIndex.toNat := by
  have lost : ∀ (field : NatRule → Nat) (given : Nat),
      ((sampleSession.world.within .allOk).drv.cache .sram).all
        (fun tbl => decide (field (tbl.table.entries 2) ≠ given)) = true →
      ∀ src, (sampleSession.world.within .allOk).drv.cache .sram = some src →
        field (src.table.entries 2) ≠ given := by
    intro field given differs src found
    rw [found, Option.all_some, decide_eq_true_iff] at differs
    exact differs
  have redirect := lost (fun rule => rule.redirect.toNat)
    sampleRule.redirect.toNat (by decide +kernel)
  have timeStamp := lost (fun rule => rule.timeStamp.toNat)
    sampleRule.timeStamp.toNat (by decide +kernel)
  have ucActivationIndex := lost (fun rule => rule.ucActivationIndex.toNat)
    sampleRule.ucActivationIndex.toNat (by decide +kernel)
  refine ⟨fun keep => ?_, fun keep => ?_, fun keep => ?_, fun keep => ?_⟩
  · obtain ⟨src, found, carries⟩ := keep.sample
    exact redirect src found carries.redirect
  · obtain ⟨src, found, carries⟩ := keep.sample
    exact redirect src found carries
  · obtain ⟨src, found, carries⟩ := keep.sample
    exact timeStamp src found carries
  · obtain ⟨src, found, carries⟩ := keep.sample
    exact ucActivationIndex src found carries

end NatiSession

end VendorModules.IpaNat
