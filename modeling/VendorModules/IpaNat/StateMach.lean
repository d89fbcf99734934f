import VendorModules.IpaNat.World

namespace VendorModules.IpaNat

/-! The state machine of `ipa_nat_statemach.c`: the dispatcher, its table, and
the callbacks of the table, some of which run further triggers. -/

/-- `ipa_nati_trigger`, with the arguments the trigger is run with. -/
inductive NatiTrigger
  | null
  | addTable (publicIpAddr : BitVec 32) (numberOfEntries : Nat)
      (memType : Option String)
  | delTable (tblHdl : Nat)
  | clrTable (tblHdl : Nat)
  | wlkTable (tblHdl : Nat) (which : WhichTbl2Use) (walkCb : Nat → Nat → Status)
  | tblStats (tblHdl : Nat)
  | addRule (tblHdl : Nat) (clntRule : NatIpv4Rule)
  | delRule (tblHdl ruleHdl : Nat)
  | tblSwitch
  | gotoDdr
  | gotoSram
  | getTstamp (tblHdl ruleHdl : Nat)
  | last

/-- The table sizes that the library computes with floating point percentages:
the shares of a requested size, and the largest size that fits into SRAM. -/
structure TableSizing where
  shares : MemIn → Nat → EntryShares
  numSramTableEntries : Nat → Nat

/-! ### Migration -/

/-- The client's rule that `migrate_rule` rebuilds from a record. -/
def rebuildRule (rule : NatRule) : NatIpv4Rule where
  targetIp := rule.targetIp
  privateIp := rule.privateIp
  targetPort := rule.targetPort
  privatePort := rule.privatePort
  publicPort := rule.publicPort
  protocol := rule.protocol
  pdnIndex := rule.pdnIndex.setWidth 8
  redirect := BitVec.ofNat 8 rule.redirect.toNat
  enable := BitVec.ofNat 8 rule.enable.toNat
  timeStamp := rule.timeStamp.setWidth 32
  ucActivationIndex := rule.ucActivationIndex.setWidth 16
  s := rule.s
  ucp := rule.ucp
  dstOnly := rule.dstOnly
  srcOnly := rule.srcOnly

/-- `ipa_nat_map_add` to the map from original to new handles. -/
def mapAddOrig2new (mem : MemIn) (key val : Nat) : Nati Status := do
  let pair := (← get).obj.mapPairs mem
  let (orig2new, ret) := pair.orig2new.add key val
  modifyObj fun obj => obj.setMaps mem { pair with orig2new := orig2new }
  return ret

/-- `ipa_nat_map_add` to the map from new to original handles. -/
def mapAddNew2orig (mem : MemIn) (key val : Nat) : Nati Status := do
  let pair := (← get).obj.mapPairs mem
  let (new2orig, ret) := pair.new2orig.add key val
  modifyObj fun obj => obj.setMaps mem { pair with new2orig := new2orig }
  return ret

/-- `ipa_nat_map_del` from the map from original to new handles. -/
def mapDelOrig2new (mem : MemIn) (key : Nat) : Nati (Except Errno Nat) := do
  let pair := (← get).obj.mapPairs mem
  let (orig2new, ret) := pair.orig2new.del key
  modifyObj fun obj => obj.setMaps mem { pair with orig2new := orig2new }
  return ret

/-- `ipa_nat_map_del` from the map from new to original handles. -/
def mapDelNew2orig (mem : MemIn) (key : Nat) : Nati (Except Errno Nat) := do
  let pair := (← get).obj.mapPairs mem
  let (new2orig, ret) := pair.new2orig.del key
  modifyObj fun obj => obj.setMaps mem { pair with new2orig := new2orig }
  return ret

def migrateRule (dstTblHdl : Nat) (table : IpaTable NatRule) (tblRuleHdl : Nat)
    (rule : NatRule) (_recordIndex : Nat) : Nati Status := do
  let src := table.nmi
  let dst := table.nmi.other
  -- the first rule of a list stays enabled when it is deleted
  if rule.protocol = natInvalidProtocol then return .ok ()
  else
    match ((← get).obj.mapPairs src).new2orig.find tblRuleHdl with
    | .error errno => return .error errno
    | .ok origRuleHdl =>
      match ← natiAddIpv4Rule dstTblHdl (rebuildRule rule) with
      | .error errno => return .error errno
      | .ok newRuleHdl =>
        modifyObj fun obj =>
          obj.setCounter dst (obj.totRulesInTable dst + 1)
        match ← mapAddOrig2new dst origRuleHdl newRuleHdl with
        | .error errno => return .error errno
        | .ok () => mapAddNew2orig dst newRuleHdl origRuleHdl

/-! ### Callbacks that do not run other triggers -/

def smUndef : Nati Status := return .error .eperm

/-- `ipa_NATI_del_ipv4_table`. The record of a table is gone even when the
kernel does not give its memory back. -/
def natiDelIpv4Table (tblHdl : Nat) : Nati Status := withLock do
  match (← get).drv.natTable tblHdl with
  | none => return .error .einval
  | some _ =>
    modify fun world =>
      { world with drv := world.drv.setCache (tblHdlMem tblHdl) none }
    if ← ask .deleteMemory then return .ok () else return .error .eio

def smDelTbl (tblHdl : Nat) : Nati Status := do
  let ret ← natiDelIpv4Table tblHdl
  if ret = .ok () ∧ !(← get).obj.inHybridState then
    modifyObj NatiObj.back2UnstartedState
  return ret

/-- `ipa_nati_create_table` and the posting of its dimensions. -/
def natiCreateTable (sizing : TableSizing) (nmi : MemIn)
    (numberOfEntries : Nat) : Nati (Except Errno Ip4TableCache) := do
  match calculateEntriesNum numberOfEntries
      (sizing.shares nmi numberOfEntries) with
  | .error errno => return .error errno
  | .ok geometry =>
    if !(← ask .calloc) then return .error .enomem
    else if !(← ask .allocateMemory) then return .error .eio
    else if !(← ask .v4InitNat) then return .error .eio
    else return .ok (Ip4TableCache.create nmi geometry)

/-- `ipa_NATI_add_ipv4_tbl` under the mutex. -/
def natiAddIpv4TblLocked (sizing : TableSizing) (nmi : MemIn)
    (publicIpAddr : BitVec 32) (numberOfEntries : Nat)
    (store : Nat → NatiObj → NatiObj) : Nati Status := do
  match (← get).drv.cache nmi with
  | some _ => return .error .einval
  | none =>
    if !(← ask .descriptorOpen) then return .error .eio
    else
      match ← natiCreateTable sizing nmi numberOfEntries with
      | .error errno => return .error errno
      | .ok tbl =>
        modify fun world =>
          { world with
            drv :=
              { world.drv.setCache nmi (some tbl) with
                activeNatCache := some nmi
                pdns := Function.update world.drv.pdns 0 publicIpAddr } }
        modifyObj (store (makeTblHdl 1 nmi))
        return .ok ()

/-- `ipa_NATI_add_ipv4_tbl`, which stores the table's handle through `store`. A
failed unlocking replaces the outcome. -/
def natiAddIpv4Tbl (sizing : TableSizing) (nmi : MemIn)
    (publicIpAddr : BitVec 32) (numberOfEntries : Nat)
    (store : Nat → NatiObj → NatiObj) : Nati Status := do
  modifyObj (store 0)
  if ← ask .mutexLock then
    let ret ← natiAddIpv4TblLocked sizing nmi publicIpAddr numberOfEntries store
    if ← ask .mutexUnlock then return ret else return .error .eperm
  else return .error .einval

def setOutTblHdl (tblHdl : Nat) : Nati Unit :=
  modify fun world => { world with out := { world.out with tblHdl := tblHdl } }

def smAddDdrTbl (sizing : TableSizing) (publicIpAddr : BitVec 32)
    (numberOfEntries : Nat) (toClient : Bool) : Nati Status := do
  let ret ← natiAddIpv4Tbl sizing .ddr publicIpAddr numberOfEntries
    fun hdl obj => { obj with ddrTblHdl := hdl }
  if ret = .ok () ∧ toClient then setOutTblHdl (← get).obj.ddrTblHdl
  return ret

/-- `ipa_nati_get_sram_size`. -/
def natiGetSramSize : Nati (Except Errno Nat) := withLock do
  if !(← ask .descriptorOpen) then return .error .eio
  else if !(← ask .sramInfo) then return .error .eio
  else
    let size := (← get).env.sramMemAvailableForNat
    if size = 0 then return .error .einval else return .ok size

def smAddSramTbl (sizing : TableSizing) (publicIpAddr : BitVec 32) :
    Nati Status := do
  match ← natiGetSramSize with
  | .error errno => return .error errno
  | .ok sramSize =>
    let slots := sizing.numSramTableEntries sramSize
    modifyObj fun obj => { obj with totSlotsInSram := slots }
    if slots = 0 then return .error .eperm
    else
      modifyObj fun obj => { obj with backToSramThresh := slots / 4 }
      if !(← ask .clockVote) then return .error .eio
      else
        let ret ← natiAddIpv4Tbl sizing .sram publicIpAddr slots
          fun hdl obj => { obj with sramTblHdl := hdl }
        let _ ← ask .clockDevote
        if ret = .ok () then setOutTblHdl (← get).obj.sramTblHdl
        return ret

def smDelSramAndDdrTbl (tblHdl : Nat) : Nati Status := do
  modifyObj fun obj => (obj.forget .sram).forget .ddr
  match ← smDelTbl tblHdl with
  | .error errno => return .error errno
  | .ok () =>
    match ← smDelTbl (← get).obj.ddrTblHdl with
    | .error errno => return .error errno
    | .ok () =>
      modifyObj NatiObj.back2UnstartedState
      return .ok ()

def smClrTbl (tblHdl : Nat) : Nati Status := do
  modifyObj fun obj => obj.forget (tblHdlMem tblHdl)
  natiClearIpv4Tbl tblHdl

def hybridTblHdl (tblHdl : Nat) : Nati Nat := do
  let obj := (← get).obj
  if obj.currState = .hybrid then return tblHdl else return obj.ddrTblHdl

def smClrTblHybrid (tblHdl : Nat) : Nati Status := do
  smClrTbl (← hybridTblHdl tblHdl)

def smWalkTbl (tblHdl : Nat) (which : WhichTbl2Use)
    (walkCb : Nat → Nat → Status) : Nati Status :=
  natiWalkIpv4Tbl tblHdl which
    (fun _ ruleHdl _ index => return walkCb ruleHdl index)
    (fun _ ruleHdl _ index => return walkCb ruleHdl index)

def smWalkTblHybrid (tblHdl : Nat) (which : WhichTbl2Use)
    (walkCb : Nat → Nat → Status) : Nati Status := do
  smWalkTbl (← hybridTblHdl tblHdl) which walkCb

/-- Only the outcome of `ipa_NATI_ipv4_tbl_stats` is kept, not the figures it prints for the
client. -/
def smStatTbl (tblHdl : Nat) : Nati Status := do
  if !validTblHdl tblHdl then return .error .einval
  else withLock do
    match (← get).drv.natTable tblHdl with
    | none => return .error .einval
    | some _ => return .ok ()

def smStatTblHybrid (tblHdl : Nat) : Nati Status := do
  smStatTbl (← hybridTblHdl tblHdl)

/-- The client's rule as `_smAddRuleToTbl` changes it before it is added. -/
def NatIpv4Rule.cleaned (clntRule : NatIpv4Rule) : NatIpv4Rule :=
  { clntRule with redirect := 0, enable := 0, timeStamp := 0 }

def smAddRuleToTbl (tblHdl : Nat) (clntRule : NatIpv4Rule) :
    Nati (Except Errno Nat) := do
  let ret ← natiAddIpv4Rule tblHdl clntRule.cleaned
  storeRuleHdl tblHdl ret
  if ret.isOk then
    modifyObj fun obj =>
      obj.setCounter obj.chooseMemSub (obj.totRulesInTable obj.chooseMemSub + 1)
  return ret

def smDelRuleFromTbl (tblHdl ruleHdl : Nat) : Nati Status := do
  let ret ← natiDelIpv4Rule tblHdl ruleHdl
  if ret.isOk then
    modifyObj fun obj =>
      obj.setCounter obj.chooseMemSub (obj.totRulesInTable obj.chooseMemSub - 1)
  return ret

def smGoToDdr : Nati Status := do
  let ret ← natiPostIpv4InitCmd (← get).obj.ddrTblHdl
  if ret = .ok () then modifyObj fun obj => obj.setState .hybridDdr
  return ret

def smGoToSram : Nati Status := do
  let ret ← natiPostIpv4InitCmd (← get).obj.sramTblHdl
  if ret = .ok () then modifyObj fun obj => obj.setState .hybrid
  return ret

def smGetTmStmp (tblHdl ruleHdl : Nat) : Nati Status :=
  natiQueryTimestamp tblHdl ruleHdl

def smGetTmStmpHybrid (tblHdl origRuleHdl : Nat) : Nati Status := do
  let obj := (← get).obj
  match (obj.mapPairs obj.chooseMemSub).orig2new.find origRuleHdl with
  | .error errno => return .error errno
  | .ok newRuleHdl => smGetTmStmp (← hybridTblHdl tblHdl) newRuleHdl

/-! ### Callbacks that run other triggers -/

section Nested

variable (sizing : TableSizing) (statemach : NatiTrigger → Nati Status)

/-- `mem_type_str_to_ipa_nati_state`, on the upper case form of the string. -/
def memTypeStrToState (memType : Option String) : NatiState :=
  match memType.map String.toUpper with
  | some "HYBRID" => .hybrid
  | some "SRAM" => .sramOnly
  | _ => .ddrOnly

def smFirstTbl (publicIpAddr : BitVec 32) (numberOfEntries : Nat)
    (memType : Option String) : Nati Status := do
  modifyObj fun obj =>
    obj.setState
      (if obj.holdState ∧ obj.stateToHold ≠ .null then obj.stateToHold
      else memTypeStrToState memType)
  statemach (.addTable publicIpAddr numberOfEntries memType)

def smAddSramAndDdrTbl (publicIpAddr : BitVec 32) (numberOfEntries : Nat) :
    Nati Status := do
  modifyObj fun obj => (obj.forget .sram).forget .ddr
  match ← smAddSramTbl sizing publicIpAddr with
  | .ok () =>
    if (← get).obj.totSlotsInSram ≥ numberOfEntries then
      modifyObj fun obj => obj.setState .sramOnly
      return .ok ()
    else
      match ← smAddDdrTbl sizing publicIpAddr numberOfEntries false with
      | .error errno => return .error errno
      | .ok () => statemach .gotoSram
  | .error _ =>
    match ← smAddDdrTbl sizing publicIpAddr numberOfEntries true with
    | .error errno => return .error errno
    | .ok () =>
      modifyObj fun obj => obj.setState .ddrOnly
      return .ok ()

def smAddRuleHybrid (tblHdl : Nat) (clntRule : NatIpv4Rule) : Nati Status := do
  match ← smAddRuleToTbl (← hybridTblHdl tblHdl) clntRule with
  | .ok ruleHdl =>
    let mem := (← get).obj.chooseMemSub
    match ← mapAddOrig2new mem ruleHdl ruleHdl with
    | .error errno => return .error errno
    | .ok () => mapAddNew2orig mem ruleHdl ruleHdl
  | .error errno =>
    let obj := (← get).obj
    if obj.currState = .hybrid ∧ !obj.holdState then
      -- the table in SRAM is taken to be full
      match ← statemach .tblSwitch with
      | .error errno => return .error errno
      | .ok () =>
        modifyObj fun obj => obj.setState .hybridDdr
        statemach (.addRule tblHdl clntRule)
    else return .error errno

def smDelRuleHybrid (tblHdl origRuleHdl : Nat) : Nati Status := do
  let mem := (← get).obj.chooseMemSub
  match ← mapDelOrig2new mem origRuleHdl with
  | .error errno => return .error errno
  | .ok newRuleHdl =>
    let _ ← mapDelNew2orig mem newRuleHdl
    match ← smDelRuleFromTbl (← hybridTblHdl tblHdl) newRuleHdl with
    | .error errno => return .error errno
    | .ok () =>
      let obj := (← get).obj
      if obj.currState = .hybridDdr ∧
          (obj.totRulesInTable obj.chooseMemSub).toNat ≤
            obj.backToSramThresh ∧ !obj.holdState then
        match ← statemach .tblSwitch with
        | .ok () => modifyObj fun obj => obj.setState .hybrid
        | .error _ => pure ()
        return .ok ()
      else return .ok ()

/-- Count the outcome of a switch; the counters are those of the table that was
in use when the switch began. -/
def countSwitch (mem : MemIn) (ret : Status) : Nati Unit :=
  modifyObj fun obj =>
    let stats := obj.swStats mem
    { obj with
      swStats := Function.update obj.swStats mem
        (if ret = .ok () then { stats with pass := stats.pass + 1 }
        else { stats with fail := stats.fail + 1 }) }

/-- The common body of the two switch callbacks: from the table `srcHdl` to the
table `dstHdl` in `dst`, after the trigger that makes `dst` the one in use. -/
def smSwitch (focus : NatiTrigger) (dst : MemIn) (srcHdl dstHdl : NatiObj → Nat) :
    Nati Status := do
  let mem := (← get).obj.chooseMemSub
  match ← statemach focus with
  | .error errno => return .error errno
  | .ok () =>
    modifyObj fun obj => obj.forget dst
    let obj := (← get).obj
    let ret ← natiCopyIpv4Tbl (srcHdl obj) (dstHdl obj) migrateRule
    countSwitch mem ret
    return ret

def smSwitchFromDdrToSram : Nati Status :=
  smSwitch statemach .gotoSram .sram NatiObj.ddrTblHdl NatiObj.sramTblHdl

def smSwitchFromSramToDdr : Nati Status :=
  smSwitch statemach .gotoDdr .ddr NatiObj.sramTblHdl NatiObj.ddrTblHdl

def dropHdl (callback : Nati (Except Errno Nat)) : Nati Status := do
  match ← callback with
  | .error errno => return .error errno
  | .ok _ => return .ok ()

/-! ### The dispatcher -/

def stateMachTbl : NatiState → NatiTrigger → Nati Status
  | .null, .addTable ip entries memType =>
    smFirstTbl statemach ip entries memType
  | .null, _ => smUndef
  | .ddrOnly, .addTable ip entries _ => smAddDdrTbl sizing ip entries true
  | .ddrOnly, .delTable tblHdl => smDelTbl tblHdl
  | .ddrOnly, .clrTable tblHdl => smClrTbl tblHdl
  | .ddrOnly, .wlkTable tblHdl which walkCb => smWalkTbl tblHdl which walkCb
  | .ddrOnly, .tblStats tblHdl => smStatTbl tblHdl
  | .ddrOnly, .addRule tblHdl rule => dropHdl (smAddRuleToTbl tblHdl rule)
  | .ddrOnly, .delRule tblHdl ruleHdl => smDelRuleFromTbl tblHdl ruleHdl
  | .ddrOnly, .getTstamp tblHdl ruleHdl => smGetTmStmp tblHdl ruleHdl
  | .ddrOnly, _ => smUndef
  | .sramOnly, .addTable ip _ _ => smAddSramTbl sizing ip
  | .sramOnly, .delTable tblHdl => smDelTbl tblHdl
  | .sramOnly, .clrTable tblHdl => smClrTbl tblHdl
  | .sramOnly, .wlkTable tblHdl which walkCb => smWalkTbl tblHdl which walkCb
  | .sramOnly, .tblStats tblHdl => smStatTbl tblHdl
  | .sramOnly, .addRule tblHdl rule => dropHdl (smAddRuleToTbl tblHdl rule)
  | .sramOnly, .delRule tblHdl ruleHdl => smDelRuleFromTbl tblHdl ruleHdl
  | .sramOnly, .getTstamp tblHdl ruleHdl => smGetTmStmp tblHdl ruleHdl
  | .sramOnly, _ => smUndef
  | .hybrid, .addTable ip entries _ =>
    smAddSramAndDdrTbl sizing statemach ip entries
  | .hybridDdr, .addTable _ _ _ => smUndef
  | .hybrid, .delTable tblHdl | .hybridDdr, .delTable tblHdl =>
    smDelSramAndDdrTbl tblHdl
  | .hybrid, .clrTable tblHdl | .hybridDdr, .clrTable tblHdl =>
    smClrTblHybrid tblHdl
  | .hybrid, .wlkTable tblHdl which walkCb
  | .hybridDdr, .wlkTable tblHdl which walkCb =>
    smWalkTblHybrid tblHdl which walkCb
  | .hybrid, .tblStats tblHdl | .hybridDdr, .tblStats tblHdl =>
    smStatTblHybrid tblHdl
  | .hybrid, .addRule tblHdl rule | .hybridDdr, .addRule tblHdl rule =>
    smAddRuleHybrid statemach tblHdl rule
  | .hybrid, .delRule tblHdl ruleHdl | .hybridDdr, .delRule tblHdl ruleHdl =>
    smDelRuleHybrid statemach tblHdl ruleHdl
  | .hybrid, .tblSwitch => smSwitchFromSramToDdr statemach
  | .hybridDdr, .tblSwitch => smSwitchFromDdrToSram statemach
  | .hybrid, .gotoDdr | .hybridDdr, .gotoDdr => smGoToDdr
  | .hybrid, .gotoSram | .hybridDdr, .gotoSram => smGoToSram
  | .hybrid, .getTstamp tblHdl ruleHdl
  | .hybridDdr, .getTstamp tblHdl ruleHdl => smGetTmStmpHybrid tblHdl ruleHdl
  | .hybrid, _ | .hybridDdr, _ => smUndef
  | .last, _ => smUndef

end Nested

def voteRequired (obj : NatiObj) (trigger : NatiTrigger) : Bool :=
  match trigger with
  | .getTstamp _ _ | .addTable _ _ _ => false
  | .gotoSram | .tblSwitch => true
  | _ => decide (obj.currState = .sramOnly ∨ obj.currState = .hybrid)

def withVote (vote : Bool) (callback : Nati Status) : Nati Status := do
  if vote then
    if ← ask .clockVote then
      let ret ← callback
      let _ ← ask .clockDevote
      return ret
    else return .error .einval
  else callback

/-- What `ipa_nati_statemach` does while it holds the mutex: vote for the clock
if the trigger needs it, and run the callback of the trigger. -/
def voteAndRun (callbacks : NatiState → NatiTrigger → Nati Status)
    (trigger : NatiTrigger) : Nati Status := do
  withVote (voteRequired (← get).obj trigger) do
    callbacks (← get).obj.currState trigger

/-- The body of `ipa_nati_statemach`, for a table of callbacks. The status from
under the mutex is in a variable that the unlocking overwrites. -/
def dispatch (callbacks : NatiState → NatiTrigger → Nati Status)
    (trigger : NatiTrigger) : Nati Status := do
  match ← takeMutex with
  | .error errno => return .error errno
  | .ok () =>
    let _ ← voteAndRun callbacks trigger
    giveMutex

/-- `ipa_nati_statemach`. A trigger that a callback runs is one level deeper. -/
def ipaNatiStatemachAt (sizing : TableSizing) : Nat → NatiTrigger → Nati Status
  | 0, _ => return .error .eperm
  | depth + 1, trigger =>
    dispatch (stateMachTbl sizing (ipaNatiStatemachAt sizing depth)) trigger

/-- The deepest chain of triggers is an addition that makes the table switch,
which makes the other table the one in use. -/
def ipaNatiStatemach (sizing : TableSizing) (trigger : NatiTrigger) :
    Nati Status :=
  ipaNatiStatemachAt sizing 3 trigger

/-- `ipa_nat_switch_to` in a hybrid state. -/
def switchHybrid (sizing : TableSizing) (nmi : MemIn) (holdState : Bool) :
    Nati Unit := do
  if (← get).obj.compatibleNmi4Switch nmi then
    match ← ipaNatiStatemach sizing .tblSwitch with
    | .error _ => return ()
    | .ok () => modifyObj fun obj => obj.hold holdState
  else modifyObj fun obj => obj.hold holdState

/-- What `ipa_nat_switch_to` does while it holds the mutex. -/
def switchTo (sizing : TableSizing) (nmi : MemIn) (holdState : Bool) :
    Nati Unit := do
  let obj := (← get).obj
  if obj.inUnstartedState then
    modifyObj fun obj =>
      { obj with
        holdState := holdState
        stateToHold := if nmi = .ddr then .ddrOnly else .sramOnly }
  else if obj.inHybridState then switchHybrid sizing nmi holdState
  else if holdState then
    if obj.compatibleNmi4Switch nmi then modifyObj fun obj => obj.hold holdState
    else return ()
  else
    modifyObj fun obj =>
      { obj with stateToHold := .null, holdState := holdState }

def ipaNatSwitchTo (sizing : TableSizing) (nmi : MemIn) (holdState : Bool) :
    Nati Status := do
  match ← takeMutex with
  | .error errno => return .error errno
  | .ok () =>
    switchTo sizing nmi holdState
    giveMutex

end VendorModules.IpaNat
