import VendorModules.Lib.Transition
import VendorModules.IpaNat.Migrate

namespace VendorModules.IpaNat

open VendorModules.Lib

/-! Every trigger, whatever its outcome, leaves tables that hold no other rules
than the clients'. -/

/-! ### What the locking does not touch -/

def Blind (inv : World → Prop) : Prop :=
  ∀ world world' : World, world'.obj = world.obj →
    world'.drv = world.drv → inv world → inv world'

namespace Blind

variable {inv : World → Prop} (blind : Blind inv)
include blind

theorem ask_keeps (call : ExtCall) : Keeps inv (ask call) :=
  fun world holds => blind world _ rfl rfl holds

theorem takeMutex_keeps : Keeps inv takeMutex := by
  have lock : Keeps inv (do
      if ← ask .mutexLock then return .ok () else return .error .einval : Nati Status) :=
    (blind.ask_keeps .mutexLock).bind fun _ => (Keeps.pure _).ite (Keeps.pure _)
  unfold takeMutex
  refine Keeps.get.bind fun world => lock.ite ?_
  refine (blind.ask_keeps .mutexInit).bind fun _ => Keeps.ite ?_ (Keeps.pure _)
  exact Keeps.bind (fun world holds => blind world _ rfl rfl holds) fun _ => lock

theorem giveMutex_keeps : Keeps inv giveMutex := by
  unfold giveMutex
  refine Keeps.get.bind fun world => Keeps.ite ?_ (Keeps.pure _)
  exact (blind.ask_keeps .mutexUnlock).bind fun _ =>
    (Keeps.pure _).ite (Keeps.pure _)

theorem withLock_keeps {α : Type} {body : Nati (Except Errno α)}
    (kept : Keeps inv body) : Keeps inv (withLock body) := by
  unfold withLock
  refine (blind.ask_keeps .mutexLock).bind fun _ => Keeps.ite ?_ (Keeps.pure _)
  exact kept.bind fun ret =>
    (blind.ask_keeps .mutexUnlock).bind fun _ => Keeps.pure _

theorem natiPostIpv4InitCmd_keeps
    (posted : ∀ (world : World) (active : Option MemIn), inv world →
      inv { world with drv := { world.drv with activeNatCache := active } })
    (tblHdl : Nat) : Keeps inv (natiPostIpv4InitCmd tblHdl) := by
  refine blind.withLock_keeps (Keeps.get.bind fun world => ?_)
  cases world.drv.natTable tblHdl with
  | none => exact Keeps.pure _
  | some tbl =>
    refine (blind.ask_keeps .v4InitNat).bind fun _ => Keeps.ite ?_ (Keeps.pure _)
    exact Keeps.bind (fun world holds => posted world _ holds)
      fun _ => Keeps.pure _

theorem natiQueryTimestamp_keeps (tblHdl ruleHdl : Nat) :
    Keeps inv (natiQueryTimestamp tblHdl ruleHdl) := by
  unfold natiQueryTimestamp
  refine Keeps.bind (fun world holds => blind world _ rfl rfl holds)
    fun ret => ?_
  cases ret with
  | error errno => exact Keeps.pure _
  | ok timeStamp =>
    exact Keeps.bind (fun world holds => blind world _ rfl rfl holds)
      fun _ => Keeps.pure _

theorem voteAndRun_keeps {callbacks : NatiState → NatiTrigger → Nati Status}
    {trigger : NatiTrigger}
    (kept : ∀ world, inv world →
      inv (callbacks world.obj.currState trigger world).2) :
    Keeps inv (voteAndRun callbacks trigger) := by
  have called : Keeps inv (do callbacks (← get).obj.currState trigger) :=
    Keeps.get_bind kept
  refine Keeps.get.bind fun world => Keeps.ite ?_ called
  refine (blind.ask_keeps .clockVote).bind fun _ => Keeps.ite ?_ (Keeps.pure _)
  exact called.bind fun ret =>
    (blind.ask_keeps .clockDevote).bind fun _ => Keeps.pure _

theorem dispatch_keeps {callbacks : NatiState → NatiTrigger → Nati Status}
    {trigger : NatiTrigger}
    (kept : ∀ world, inv world →
      inv (callbacks world.obj.currState trigger world).2) :
    Keeps inv (dispatch callbacks trigger) := by
  refine blind.takeMutex_keeps.bind fun ret => ?_
  cases ret with
  | error errno => exact Keeps.pure _
  | ok => exact (blind.voteAndRun_keeps kept).bind fun _ => blind.giveMutex_keeps

end Blind

variable {own : NatIpv4Rule → Prop}

theorem World.Holding.blind : Blind (World.Holding own) :=
  fun _ _ obj drv holding =>
    holding.congr (congrArg NatDrv.cache drv) (obj ▸ rfl) (obj ▸ rfl)

/-! ### The driver's functions -/

theorem ask_keeps (call : ExtCall) : Keeps (World.Holding own) (ask call) :=
  World.Holding.blind.ask_keeps call

theorem natiAddIpv4Rule_keeps {tblHdl : Nat} {added clntRule : NatIpv4Rule}
    (brings : added.BringsIn clntRule) (owned : own clntRule) :
    Keeps (World.Holding own) (natiAddIpv4Rule tblHdl added) :=
  fun world holding =>
    ⟨(holding.tables.add tblHdl brings owned (askCalls world).1).1, holding.ddrTblHdl,
      holding.sramTblHdl⟩

theorem natiDelIpv4Rule_keeps (tblHdl ruleHdl : Nat) :
    Keeps (World.Holding own) (natiDelIpv4Rule tblHdl ruleHdl) :=
  fun world holding =>
    ⟨holding.tables.del tblHdl ruleHdl (askCalls world).1, holding.ddrTblHdl,
      holding.sramTblHdl⟩

theorem natiClearIpv4Tbl_keeps (tblHdl : Nat) :
    Keeps (World.Holding own) (natiClearIpv4Tbl tblHdl) :=
  fun world holding =>
    ⟨(holding.tables.clear tblHdl (askCalls world).1).1, holding.ddrTblHdl,
      holding.sramTblHdl⟩

theorem withLock_keeps {α : Type} {body : Nati (Except Errno α)}
    (kept : Keeps (World.Holding own) body) :
    Keeps (World.Holding own) (withLock body) :=
  World.Holding.blind.withLock_keeps kept

theorem natiDelIpv4Table_keeps (tblHdl : Nat) :
    Keeps (World.Holding own) (natiDelIpv4Table tblHdl) := by
  refine withLock_keeps (Keeps.get.bind fun world => ?_)
  cases world.drv.natTable tblHdl with
  | none => exact Keeps.pure _
  | some tbl =>
    refine Keeps.bind (fun world holding => ?_) fun _ =>
      (ask_keeps .deleteMemory).bind fun _ => (Keeps.pure _).ite (Keeps.pure _)
    exact ⟨holding.tables.erase _, holding.ddrTblHdl, holding.sramTblHdl⟩

theorem natiGetSramSize_keeps : Keeps (World.Holding own) natiGetSramSize := by
  refine withLock_keeps ((ask_keeps .descriptorOpen).bind fun _ =>
    (Keeps.pure _).ite ((ask_keeps .sramInfo).bind fun _ => (Keeps.pure _).ite ?_))
  exact Keeps.get.bind fun world => (Keeps.pure _).ite (Keeps.pure _)

/-- The handle of a table in `nmi` is stored where it belongs. -/
def StoresIn (nmi : MemIn) (store : Nat → NatiObj → NatiObj) : Prop :=
  ∀ hdl obj, StoredTblHdl hdl nmi → StoredTblHdl obj.ddrTblHdl .ddr →
    StoredTblHdl obj.sramTblHdl .sram →
    StoredTblHdl (store hdl obj).ddrTblHdl .ddr ∧
      StoredTblHdl (store hdl obj).sramTblHdl .sram

theorem storesIn_ddr :
    StoresIn .ddr fun hdl obj => { obj with ddrTblHdl := hdl } :=
  fun _ _ stored _ sram => ⟨stored, sram⟩

theorem storesIn_sram :
    StoresIn .sram fun hdl obj => { obj with sramTblHdl := hdl } :=
  fun _ _ stored ddr _ => ⟨ddr, stored⟩

theorem natiCreateTable_keeps (sizing : TableSizing) (nmi : MemIn)
    (numberOfEntries : Nat) :
    Keeps (World.Holding own) (natiCreateTable sizing nmi numberOfEntries) := by
  unfold natiCreateTable
  cases calculateEntriesNum numberOfEntries
      (sizing.shares nmi numberOfEntries) with
  | error errno => exact Keeps.pure _
  | ok geometry =>
    exact (ask_keeps .calloc).bind fun _ => (Keeps.pure _).ite <|
      (ask_keeps .allocateMemory).bind fun _ => (Keeps.pure _).ite <|
      (ask_keeps .v4InitNat).bind fun _ => (Keeps.pure _).ite (Keeps.pure _)

theorem natiCreateTable_created {sizing : TableSizing} {nmi : MemIn}
    {numberOfEntries : Nat} (world : World) {tbl : Ip4TableCache}
    (created : (natiCreateTable sizing nmi numberOfEntries world).1 = .ok tbl) :
    tbl.Holding own nmi := by
  simp only [natiCreateTable] at created
  cases sized : calculateEntriesNum numberOfEntries
      (sizing.shares nmi numberOfEntries) with
  | error errno =>
    rw [sized] at created
    cases created
  | ok geometry =>
    simp only [sized, bind_apply, ite_apply, pure_apply] at created
    split_ifs at created
    cases created
    exact Ip4TableCache.Holding.create own nmi geometry

section AddTable

variable {sizing : TableSizing} {nmi : MemIn}
  {store : Nat → NatiObj → NatiObj} (stores : StoresIn nmi store)
include stores

theorem store_keeps {hdl : Nat} (stored : StoredTblHdl hdl nmi) :
    Keeps (World.Holding own) (modifyObj (store hdl)) := by
  intro world holding
  obtain ⟨ddr, sram⟩ :=
    stores hdl world.obj stored holding.ddrTblHdl holding.sramTblHdl
  exact ⟨holding.tables, ddr, sram⟩

theorem natiAddIpv4TblLocked_keeps (publicIpAddr : BitVec 32)
    (numberOfEntries : Nat) :
    Keeps (World.Holding own)
      (natiAddIpv4TblLocked sizing nmi publicIpAddr numberOfEntries store) := by
  refine Keeps.get.bind fun world => ?_
  cases world.drv.cache nmi with
  | some tbl => exact Keeps.pure _
  | none =>
    refine (ask_keeps .descriptorOpen).bind fun _ => (Keeps.pure _).ite ?_
    refine Keeps.bind_returned
      (fun ret => ∀ tbl, ret = .ok tbl → tbl.Holding own nmi)
      (natiCreateTable_keeps sizing nmi numberOfEntries)
      (fun world _ created => natiCreateTable_created world created)
      fun ret created => ?_
    cases ret with
    | error errno => exact Keeps.pure _
    | ok tbl =>
      refine Keeps.bind (fun world holding => ?_) fun _ =>
        (store_keeps stores (Or.inr rfl)).bind fun _ => Keeps.pure _
      exact ⟨holding.tables.update (created tbl rfl), holding.ddrTblHdl,
        holding.sramTblHdl⟩

theorem natiAddIpv4Tbl_keeps (publicIpAddr : BitVec 32)
    (numberOfEntries : Nat) :
    Keeps (World.Holding own)
      (natiAddIpv4Tbl sizing nmi publicIpAddr numberOfEntries store) := by
  refine (store_keeps stores (Or.inl rfl)).bind fun _ =>
    (ask_keeps .mutexLock).bind fun _ => Keeps.ite ?_ (Keeps.pure _)
  exact (natiAddIpv4TblLocked_keeps stores publicIpAddr numberOfEntries).bind
    fun _ => (ask_keeps .mutexUnlock).bind fun _ =>
      (Keeps.pure _).ite (Keeps.pure _)

end AddTable

/-! ### The callbacks -/

theorem change_keeps {change : NatiObj → NatiObj}
    (same : ∀ obj, (change obj).ddrTblHdl = obj.ddrTblHdl ∧
      (change obj).sramTblHdl = obj.sramTblHdl) :
    Keeps (World.Holding own) (modifyObj change) :=
  fun world holding =>
    holding.congr rfl (same world.obj).1 (same world.obj).2

theorem setOutTblHdl_keeps (tblHdl : Nat) :
    Keeps (World.Holding own) (setOutTblHdl tblHdl) :=
  fun _ holding => holding.congr rfl rfl rfl

theorem setState_keeps (state : NatiState) :
    Keeps (World.Holding own) (modifyObj fun obj => obj.setState state) :=
  change_keeps fun _ => ⟨rfl, rfl⟩

theorem back2UnstartedState_keeps :
    Keeps (World.Holding own) (modifyObj NatiObj.back2UnstartedState) :=
  change_keeps fun _ => ⟨rfl, rfl⟩

theorem smDelTbl_keeps (tblHdl : Nat) :
    Keeps (World.Holding own) (smDelTbl tblHdl) :=
  (natiDelIpv4Table_keeps tblHdl).bind fun _ => Keeps.get.bind fun _ =>
    (back2UnstartedState_keeps.bind fun _ => Keeps.pure _).ite (Keeps.pure _)

theorem smAddDdrTbl_keeps (sizing : TableSizing) (publicIpAddr : BitVec 32)
    (numberOfEntries : Nat) (toClient : Bool) :
    Keeps (World.Holding own)
      (smAddDdrTbl sizing publicIpAddr numberOfEntries toClient) :=
  (natiAddIpv4Tbl_keeps storesIn_ddr publicIpAddr numberOfEntries).bind fun _ =>
    (Keeps.get.bind fun _ => (setOutTblHdl_keeps _).bind fun _ =>
      Keeps.pure _).ite (Keeps.pure _)

theorem smAddSramTbl_keeps (sizing : TableSizing) (publicIpAddr : BitVec 32) :
    Keeps (World.Holding own) (smAddSramTbl sizing publicIpAddr) := by
  refine natiGetSramSize_keeps.bind fun ret => ?_
  cases ret with
  | error errno => exact Keeps.pure _
  | ok sramSize =>
    refine Keeps.bind (change_keeps fun _ => ⟨rfl, rfl⟩) fun _ =>
      (Keeps.pure _).ite ?_
    refine Keeps.bind (change_keeps fun _ => ⟨rfl, rfl⟩) fun _ =>
      (ask_keeps .clockVote).bind fun _ => (Keeps.pure _).ite ?_
    refine (natiAddIpv4Tbl_keeps storesIn_sram publicIpAddr _).bind fun _ =>
      (ask_keeps .clockDevote).bind fun _ => Keeps.ite ?_ (Keeps.pure _)
    exact Keeps.get.bind fun _ => (setOutTblHdl_keeps _).bind fun _ =>
      Keeps.pure _

theorem smDelSramAndDdrTbl_keeps (tblHdl : Nat) :
    Keeps (World.Holding own) (smDelSramAndDdrTbl tblHdl) := by
  refine Keeps.bind (change_keeps fun _ => ⟨rfl, rfl⟩) fun _ =>
    (smDelTbl_keeps tblHdl).bind fun ret => ?_
  cases ret with
  | error errno => exact Keeps.pure _
  | ok =>
    refine Keeps.get.bind fun _ => (smDelTbl_keeps _).bind fun ret => ?_
    cases ret with
    | error errno => exact Keeps.pure _
    | ok => exact back2UnstartedState_keeps.bind fun _ => Keeps.pure _

theorem smClrTbl_keeps (tblHdl : Nat) :
    Keeps (World.Holding own) (smClrTbl tblHdl) :=
  Keeps.bind (change_keeps fun _ => ⟨rfl, rfl⟩) fun _ =>
    natiClearIpv4Tbl_keeps tblHdl

theorem hybridTblHdl_keeps (tblHdl : Nat) :
    Keeps (World.Holding own) (hybridTblHdl tblHdl) :=
  Keeps.get.bind fun _ => (Keeps.pure _).ite (Keeps.pure _)

theorem IpaTable.walk_keeps {E U σ ρ : Type} {ei : EntryInterface E U}
    {getTable : σ → IpaTable E} {when2cb : When2Callback}
    {walkCb : σ → Nat → Nat → σ × Option ρ} {inv : σ → Prop}
    (visit : ∀ s ruleHdl index, inv s → inv (walkCb s ruleHdl index).1)
    {start : Nat} {s : σ} (holds : inv s) :
    inv (walk ei getTable when2cb walkCb start s).1 := by
  have loop : ∀ count i s, inv s →
      inv (walkFrom ei getTable when2cb walkCb count i s).1 := by
    intro count
    induction count with
    | zero => exact fun _ _ holds => holds
    | succ count induction =>
      intro i s holds
      rw [walkFrom]
      split
      · have visited := visit s ((getTable s).makeEntryHdl i) i holds
        generalize walkCb s ((getTable s).makeEntryHdl i) i = result
          at visited ⊢
        obtain ⟨s', _ | ret⟩ := result
        · exact induction (i + 1) s' visited
        · exact visited
      · exact induction (i + 1) s holds
  rw [walk]
  split
  · exact holds
  · exact loop _ start s holds

theorem walkTable_keeps {E U : Type} {ei : EntryInterface E U}
    {getTable : World → IpaTable E}
    {walkCb : IpaTable E → Nat → E → Nat → Nati Status}
    (visit : ∀ table ruleHdl entry index,
      Keeps (World.Holding own) (walkCb table ruleHdl entry index)) :
    Keeps (World.Holding own) (walkTable ei getTable walkCb) := by
  intro world holding
  simp only [walkTable]
  generalize walked : IpaTable.walk ei getTable .slotFilled _ 0 world = result
  have kept : World.Holding own result.1 := by
    rw [← walked]
    refine IpaTable.walk_keeps (fun world ruleHdl index holds => ?_) holding
    have kept := visit (getTable world) ruleHdl
      ((getTable world).entries index) index world holds
    generalize walkCb (getTable world) ruleHdl _ index world = ran at kept ⊢
    obtain ⟨_ | _, world'⟩ := ran
    · exact kept
    · exact kept
  obtain ⟨world', _ | _ | _⟩ := result
  · exact kept
  · exact kept
  · exact kept

theorem smWalkTbl_keeps (tblHdl : Nat) (which : WhichTbl2Use)
    (walkCb : Nat → Nat → Status) :
    Keeps (World.Holding own) (smWalkTbl tblHdl which walkCb) := by
  refine (Keeps.pure _).ite (withLock_keeps (Keeps.get.bind fun world => ?_))
  cases world.drv.natTable tblHdl with
  | none => exact Keeps.pure _
  | some tbl =>
    cases which with
    | useNatTable => exact walkTable_keeps fun _ _ _ _ => Keeps.pure _
    | useIndexTable => exact walkTable_keeps fun _ _ _ _ => Keeps.pure _

theorem smStatTbl_keeps (tblHdl : Nat) :
    Keeps (World.Holding own) (smStatTbl tblHdl) := by
  refine (Keeps.pure _).ite (withLock_keeps (Keeps.get.bind fun world => ?_))
  cases world.drv.natTable tblHdl with
  | none => exact Keeps.pure _
  | some tbl => exact Keeps.pure _

theorem NatIpv4Rule.cleaned_bringsIn (clntRule : NatIpv4Rule) :
    clntRule.cleaned.BringsIn clntRule :=
  fun _ _ _ _ => ⟨rfl, rfl, rfl, rfl, rfl, rfl, rfl, rfl, rfl, rfl, rfl, rfl,
    rfl, rfl⟩

theorem smAddRuleToTbl_keeps (tblHdl : Nat) {clntRule : NatIpv4Rule}
    (owned : own clntRule) :
    Keeps (World.Holding own) (smAddRuleToTbl tblHdl clntRule) :=
  (natiAddIpv4Rule_keeps clntRule.cleaned_bringsIn owned).bind fun _ =>
    Keeps.bind (fun _ holding => holding.congr rfl rfl rfl) fun _ =>
    Keeps.ite (Keeps.bind (change_keeps fun _ => ⟨rfl, rfl⟩)
      fun _ => Keeps.pure _) (Keeps.pure _)

theorem smDelRuleFromTbl_keeps (tblHdl ruleHdl : Nat) :
    Keeps (World.Holding own) (smDelRuleFromTbl tblHdl ruleHdl) :=
  (natiDelIpv4Rule_keeps tblHdl ruleHdl).bind fun _ =>
    Keeps.ite (Keeps.bind (change_keeps fun _ => ⟨rfl, rfl⟩)
      fun _ => Keeps.pure _) (Keeps.pure _)

theorem smGoToDdr_keeps : Keeps (World.Holding own) smGoToDdr :=
  Keeps.get.bind fun _ =>
    (World.Holding.blind.natiPostIpv4InitCmd_keeps
      (fun _ _ holding => holding.congr rfl rfl rfl) _).bind fun _ =>
    ((setState_keeps _).bind fun _ => Keeps.pure _).ite (Keeps.pure _)

theorem smGoToSram_keeps : Keeps (World.Holding own) smGoToSram :=
  Keeps.get.bind fun _ =>
    (World.Holding.blind.natiPostIpv4InitCmd_keeps
      (fun _ _ holding => holding.congr rfl rfl rfl) _).bind fun _ =>
    ((setState_keeps _).bind fun _ => Keeps.pure _).ite (Keeps.pure _)

theorem smGetTmStmpHybrid_keeps (tblHdl origRuleHdl : Nat) :
    Keeps (World.Holding own) (smGetTmStmpHybrid tblHdl origRuleHdl) := by
  refine Keeps.get.bind fun world => ?_
  simp only
  cases (world.obj.mapPairs world.obj.chooseMemSub).orig2new.find origRuleHdl with
  | error errno => exact Keeps.pure _
  | ok newRuleHdl =>
    exact (hybridTblHdl_keeps tblHdl).bind fun _ =>
      World.Holding.blind.natiQueryTimestamp_keeps _ _

/-! ### Callbacks that run other triggers -/

/-- The client of an addition is one whose rules are among `own`. -/
def NatiTrigger.From (own : NatIpv4Rule → Prop) : NatiTrigger → Prop
  | .addRule _ clntRule => own clntRule
  | _ => True

section Nested

variable {statemach : NatiTrigger → Nati Status}
  (kept : ∀ trigger : NatiTrigger, trigger.From own →
    Keeps (World.Holding own) (statemach trigger))
include kept

theorem smFirstTbl_keeps (publicIpAddr : BitVec 32) (numberOfEntries : Nat)
    (memType : Option String) :
    Keeps (World.Holding own)
      (smFirstTbl statemach publicIpAddr numberOfEntries memType) :=
  Keeps.bind (change_keeps fun _ => ⟨rfl, rfl⟩) fun _ =>
    kept (.addTable _ _ _) trivial

theorem smAddSramAndDdrTbl_keeps (sizing : TableSizing)
    (publicIpAddr : BitVec 32) (numberOfEntries : Nat) :
    Keeps (World.Holding own)
      (smAddSramAndDdrTbl sizing statemach publicIpAddr numberOfEntries) := by
  refine Keeps.bind (change_keeps fun _ => ⟨rfl, rfl⟩) fun _ =>
    (smAddSramTbl_keeps sizing publicIpAddr).bind fun ret => ?_
  cases ret with
  | ok =>
    refine Keeps.get.bind fun _ =>
      ((setState_keeps _).bind fun _ => Keeps.pure _).ite ?_
    refine (smAddDdrTbl_keeps sizing publicIpAddr numberOfEntries false).bind
      fun ret => ?_
    cases ret with
    | error errno => exact Keeps.pure _
    | ok => exact kept .gotoSram trivial
  | error errno =>
    refine (smAddDdrTbl_keeps sizing publicIpAddr numberOfEntries true).bind
      fun ret => ?_
    cases ret with
    | error errno => exact Keeps.pure _
    | ok => exact (setState_keeps _).bind fun _ => Keeps.pure _

theorem smAddRuleHybrid_keeps (tblHdl : Nat) {clntRule : NatIpv4Rule}
    (owned : own clntRule) :
    Keeps (World.Holding own) (smAddRuleHybrid statemach tblHdl clntRule) := by
  refine (hybridTblHdl_keeps tblHdl).bind fun _ =>
    (smAddRuleToTbl_keeps _ owned).bind fun ret => ?_
  cases ret with
  | ok ruleHdl =>
    refine Keeps.get.bind fun _ =>
      Keeps.bind (fun _ holding => holding.congr rfl rfl rfl) fun ret => ?_
    cases ret with
    | error errno => exact Keeps.pure _
    | ok => exact fun _ holding => holding.congr rfl rfl rfl
  | error errno =>
    refine Keeps.get.bind fun world => Keeps.ite ?_ (Keeps.pure _)
    refine (kept .tblSwitch trivial).bind fun ret => ?_
    cases ret with
    | error errno => exact Keeps.pure _
    | ok => exact (setState_keeps _).bind fun _ => kept (.addRule _ _) owned

theorem smDelRuleHybrid_keeps (tblHdl origRuleHdl : Nat) :
    Keeps (World.Holding own)
      (smDelRuleHybrid statemach tblHdl origRuleHdl) := by
  refine Keeps.get.bind fun _ =>
    Keeps.bind (fun _ holding => holding.congr rfl rfl rfl) fun ret => ?_
  cases ret with
  | error errno => exact Keeps.pure _
  | ok newRuleHdl =>
    refine Keeps.bind (fun _ holding => holding.congr rfl rfl rfl) fun _ =>
      (hybridTblHdl_keeps tblHdl).bind fun _ =>
      (smDelRuleFromTbl_keeps _ newRuleHdl).bind fun ret => ?_
    cases ret with
    | error errno => exact Keeps.pure _
    | ok =>
      refine Keeps.get.bind fun world => Keeps.ite ?_ (Keeps.pure _)
      refine (kept .tblSwitch trivial).bind fun ret => ?_
      cases ret with
      | error errno => exact Keeps.pure _
      | ok => exact (setState_keeps _).bind fun _ => Keeps.pure _

theorem smSwitch_keeps (focus : NatiTrigger) (plain : focus.From own)
    (mem : MemIn) {srcHdl dstHdl : NatiObj → Nat}
    (storedSrc : ∀ world : World, world.Holding own →
      StoredTblHdl (srcHdl world.obj) mem)
    (storedDst : ∀ world : World, world.Holding own →
      StoredTblHdl (dstHdl world.obj) mem.other) :
    Keeps (World.Holding own)
      (smSwitch statemach focus mem.other srcHdl dstHdl) := by
  refine Keeps.get.bind fun _ => (kept focus plain).bind fun ret => ?_
  cases ret with
  | error errno => exact Keeps.pure _
  | ok =>
    refine Keeps.bind (change_keeps fun _ => ⟨rfl, rfl⟩) fun _ =>
      Keeps.get_bind fun world holding => ?_
    have copied := natiCopyIpv4Tbl_migrate holding (storedSrc world holding)
      (storedDst world holding)
    simp only [bind_apply, pure_apply]
    generalize natiCopyIpv4Tbl _ _ migrateRule world = copy at copied ⊢
    obtain ⟨_ | _, next⟩ := copy
    · exact copied.congr rfl rfl rfl
    · obtain ⟨src, -, migrating⟩ := copied
      exact migrating.holding.congr rfl rfl rfl

theorem smSwitchFromSramToDdr_keeps :
    Keeps (World.Holding own) (smSwitchFromSramToDdr statemach) :=
  smSwitch_keeps kept .gotoDdr trivial .sram
    (fun _ holding => holding.sramTblHdl) fun _ holding => holding.ddrTblHdl

theorem smSwitchFromDdrToSram_keeps :
    Keeps (World.Holding own) (smSwitchFromDdrToSram statemach) :=
  smSwitch_keeps kept .gotoSram trivial .ddr
    (fun _ holding => holding.ddrTblHdl) fun _ holding => holding.sramTblHdl

theorem stateMachTbl_keeps (sizing : TableSizing) (state : NatiState)
    {trigger : NatiTrigger} (client : trigger.From own) :
    Keeps (World.Holding own)
      (stateMachTbl sizing statemach state trigger) := by
  have dropped : ∀ {callback : Nati (Except Errno Nat)},
      Keeps (World.Holding own) callback →
      Keeps (World.Holding own) (dropHdl callback) := by
    intro callback keep
    refine keep.bind fun ret => ?_
    cases ret with
    | error errno => exact Keeps.pure _
    | ok ruleHdl => exact Keeps.pure _
  have walkHybrid : ∀ tblHdl which walkCb,
      Keeps (World.Holding own) (smWalkTblHybrid tblHdl which walkCb) :=
    fun tblHdl which walkCb => (hybridTblHdl_keeps tblHdl).bind fun _ =>
      smWalkTbl_keeps _ which walkCb
  have statHybrid : ∀ tblHdl,
      Keeps (World.Holding own) (smStatTblHybrid tblHdl) :=
    fun tblHdl => (hybridTblHdl_keeps tblHdl).bind fun _ => smStatTbl_keeps _
  have clrHybrid : ∀ tblHdl,
      Keeps (World.Holding own) (smClrTblHybrid tblHdl) :=
    fun tblHdl => (hybridTblHdl_keeps tblHdl).bind fun _ => smClrTbl_keeps _
  unfold stateMachTbl
  split
  · exact smFirstTbl_keeps kept _ _ _
  · exact Keeps.pure _
  · exact smAddDdrTbl_keeps _ _ _ _
  · exact smDelTbl_keeps _
  · exact smClrTbl_keeps _
  · exact smWalkTbl_keeps _ _ _
  · exact smStatTbl_keeps _
  · exact dropped (smAddRuleToTbl_keeps _ client)
  · exact smDelRuleFromTbl_keeps _ _
  · exact World.Holding.blind.natiQueryTimestamp_keeps _ _
  · exact Keeps.pure _
  · exact smAddSramTbl_keeps _ _
  · exact smDelTbl_keeps _
  · exact smClrTbl_keeps _
  · exact smWalkTbl_keeps _ _ _
  · exact smStatTbl_keeps _
  · exact dropped (smAddRuleToTbl_keeps _ client)
  · exact smDelRuleFromTbl_keeps _ _
  · exact World.Holding.blind.natiQueryTimestamp_keeps _ _
  · exact Keeps.pure _
  · exact smAddSramAndDdrTbl_keeps kept _ _ _
  · exact Keeps.pure _
  · exact smDelSramAndDdrTbl_keeps _
  · exact smDelSramAndDdrTbl_keeps _
  · exact clrHybrid _
  · exact clrHybrid _
  · exact walkHybrid _ _ _
  · exact walkHybrid _ _ _
  · exact statHybrid _
  · exact statHybrid _
  · exact smAddRuleHybrid_keeps kept _ client
  · exact smAddRuleHybrid_keeps kept _ client
  · exact smDelRuleHybrid_keeps kept _ _
  · exact smDelRuleHybrid_keeps kept _ _
  · exact smSwitchFromSramToDdr_keeps kept
  · exact smSwitchFromDdrToSram_keeps kept
  · exact smGoToDdr_keeps
  · exact smGoToDdr_keeps
  · exact smGoToSram_keeps
  · exact smGoToSram_keeps
  · exact smGetTmStmpHybrid_keeps _ _
  · exact smGetTmStmpHybrid_keeps _ _
  · exact Keeps.pure _
  · exact Keeps.pure _
  · exact Keeps.pure _

end Nested

/-! ### The dispatcher -/

theorem ipaNatiStatemachAt_keeps (sizing : TableSizing) (depth : Nat) :
    ∀ trigger : NatiTrigger, trigger.From own →
      Keeps (World.Holding own) (ipaNatiStatemachAt sizing depth trigger) := by
  induction depth with
  | zero => exact fun _ _ => Keeps.pure _
  | succ depth induction =>
    exact fun trigger client => World.Holding.blind.dispatch_keeps fun world =>
      stateMachTbl_keeps induction sizing world.obj.currState client world

theorem ipaNatSwitchTo_keeps (sizing : TableSizing) (nmi : MemIn)
    (holdState : Bool) :
    Keeps (World.Holding own) (ipaNatSwitchTo sizing nmi holdState) := by
  have hybrid : Keeps (World.Holding own) (switchHybrid sizing nmi holdState) := by
    refine Keeps.get.bind fun world => Keeps.ite ?_
      (change_keeps fun _ => ⟨rfl, rfl⟩)
    refine Keeps.bind (ipaNatiStatemachAt_keeps sizing 3 .tblSwitch trivial)
      fun ret => ?_
    cases ret with
    | error errno => exact Keeps.pure _
    | ok => exact change_keeps fun _ => ⟨rfl, rfl⟩
  refine World.Holding.blind.takeMutex_keeps.bind fun ret => ?_
  cases ret with
  | error errno => exact Keeps.pure _
  | ok =>
    refine Keeps.bind (Keeps.get.bind fun world => ?_) fun _ =>
      World.Holding.blind.giveMutex_keeps
    refine Keeps.ite (change_keeps fun _ => ⟨rfl, rfl⟩)
      (hybrid.ite (Keeps.ite ?_ (change_keeps fun _ => ⟨rfl, rfl⟩)))
    exact Keeps.ite (change_keeps fun _ => ⟨rfl, rfl⟩) (Keeps.pure _)

end VendorModules.IpaNat
