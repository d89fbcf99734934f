import VendorModules.IpaNat.Driver

namespace VendorModules.IpaNat

/-! The data of `ipa_nat_statemach.c` and `ipa_nat_map.cpp`, and the driver's
functions as programs that ask the system for the outcome of each call that
leaves the library. -/

inductive ExtCall
  | mutexInit
  | mutexLock
  | mutexUnlock
  | clockVote
  | clockDevote
  | tableDmaCmd
  | v4InitNat
  | descriptorOpen
  | sramInfo
  | calloc
  | allocateMemory
  | deleteMemory
  deriving DecidableEq, Repr

/-- The answers of the system: whether the n-th call succeeds, and the memory
that is available for NAT. -/
structure Env where
  answer : ExtCall → Nat → Bool
  asked : Nat
  sramMemAvailableForNat : Nat

/-! ### Handle maps -/

/-- One `std::map<uint32_t, uint32_t>` of `ipa_nat_map.cpp`. -/
abbrev NatMap := Nat → Option Nat

abbrev Status := Except Errno Unit

namespace NatMap

def empty : NatMap := fun _ => none

/-- `ipa_nat_map_add`: a key that is in the map keeps its value. -/
def add (map : NatMap) (key val : Nat) : NatMap × Status :=
  match map key with
  | some _ => (map, .error .eperm)
  | none => (Function.update map key (some val), .ok ())

/-- `ipa_nat_map_find`. -/
def find (map : NatMap) (key : Nat) : Except Errno Nat :=
  match map key with
  | some val => .ok val
  | none => .error .eperm

/-- `ipa_nat_map_del`. -/
def del (map : NatMap) (key : Nat) : NatMap × Except Errno Nat :=
  match map key with
  | some val => (Function.update map key none, .ok val)
  | none => (map, .error .eperm)

end NatMap

structure NatiMapPair where
  orig2new : NatMap
  new2orig : NatMap

def NatiMapPair.empty : NatiMapPair := ⟨NatMap.empty, NatMap.empty⟩

/-! ### The state machine's object -/

/-- `ipa_nati_state`. -/
inductive NatiState
  | null
  | ddrOnly
  | sramOnly
  | hybrid
  | hybridDdr
  | last
  deriving DecidableEq, Repr

structure NatiSwitchStats where
  pass : BitVec 32
  fail : BitVec 32

/-- `ipa_nati_obj`. The arrays are indexed by the memory type. -/
structure NatiObj where
  prevState : NatiState
  currState : NatiState
  holdState : Bool
  stateToHold : NatiState
  ddrTblHdl : Nat
  sramTblHdl : Nat
  totSlotsInSram : Nat
  backToSramThresh : Nat
  totRulesInTable : MemIn → BitVec 32
  mapPairs : MemIn → NatiMapPair
  swStats : MemIn → NatiSwitchStats

namespace NatiObj

variable (obj : NatiObj)

/-- `SET_NATIOBJ_STATE`. -/
def setState (state : NatiState) : NatiObj :=
  { obj with prevState := obj.currState, currState := state }

def back2UnstartedState : NatiObj :=
  { obj with prevState := .null, currState := .null }

def inUnstartedState : Bool := decide (obj.prevState = .null)

def inHybridState : Bool :=
  decide (obj.currState = .hybrid ∨ obj.currState = .hybridDdr)

def compatibleNmi4Switch (nmi : MemIn) : Bool :=
  decide ((nmi = .sram ∧ obj.currState = .hybridDdr) ∨
    (nmi = .ddr ∧ obj.currState = .hybrid) ∨
    (nmi = .ddr ∧ obj.currState = .ddrOnly) ∨
    (nmi = .sram ∧ obj.currState = .sramOnly))

def genHoldState : NatiState :=
  if !obj.inHybridState then obj.currState
  else if obj.currState = .hybrid then .sramOnly
  else .ddrOnly

def hold (holdState : Bool) : NatiObj :=
  { obj with
    holdState := holdState
    stateToHold := if holdState then obj.genHoldState else obj.stateToHold }

def chooseMemSub : MemIn := if obj.currState = .hybrid then .sram else .ddr

def setCounter (mem : MemIn) (count : BitVec 32) : NatiObj :=
  { obj with totRulesInTable := Function.update obj.totRulesInTable mem count }

def setMaps (mem : MemIn) (pair : NatiMapPair) : NatiObj :=
  { obj with mapPairs := Function.update obj.mapPairs mem pair }

def forget (mem : MemIn) : NatiObj :=
  (obj.setCounter mem 0).setMaps mem NatiMapPair.empty

end NatiObj

structure NatiOut where
  tblHdl : Nat
  ruleHdl : Nat
  timeStamp : Nat

structure World where
  obj : NatiObj
  drv : NatDrv
  natMutexInit : Bool
  out : NatiOut
  env : Env

abbrev Nati := StateM World

/-! Running a program in a world. -/

section Apply

variable {α β : Type} (world : World)

@[simp] theorem bind_apply (program : Nati α) (next : α → Nati β) :
    (program >>= next) world = next (program world).1 (program world).2 := rfl

@[simp] theorem pure_apply (a : α) : (pure a : Nati α) world = (a, world) := rfl

@[simp] theorem get_apply : (get : Nati World) world = (world, world) := rfl

@[simp high] theorem get_bind_apply (next : World → Nati α) :
    ((get : Nati World) >>= next) world = next world world := rfl

@[simp] theorem set_apply (world' : World) :
    (set world' : Nati PUnit) world = (⟨⟩, world') := rfl

@[simp] theorem modify_apply (change : World → World) :
    (modify change : Nati PUnit) world = (⟨⟩, change world) := rfl

@[simp] theorem ite_apply {c : Prop} [Decidable c] (program other : Nati α) :
    (if c then program else other) world =
      if c then program world else other world := by
  split <;> rfl

end Apply

def ask (call : ExtCall) : Nati Bool := fun world =>
  (world.env.answer call world.env.asked,
    { world with env := { world.env with asked := world.env.asked + 1 } })

def modifyObj (change : NatiObj → NatiObj) : Nati Unit :=
  modify fun world => { world with obj := change world.obj }

@[simp] theorem modifyObj_apply (change : NatiObj → NatiObj) (world : World) :
    modifyObj change world = (⟨⟩, { world with obj := change world.obj }) := rfl

/-! ### The mutex -/

/-- The code of a failed system call stands as `einval`. -/
def takeMutex : Nati Status := do
  if (← get).natMutexInit then
    if ← ask .mutexLock then return .ok () else return .error .einval
  else if ← ask .mutexInit then
    modify fun world => { world with natMutexInit := true }
    if ← ask .mutexLock then return .ok () else return .error .einval
  else return .error .einval

def giveMutex : Nati Status := do
  if (← get).natMutexInit then
    if ← ask .mutexUnlock then return .ok () else return .error .einval
  else return .error .eperm

/-- The locking around the body of a driver's function: an outcome that is a
failure already is kept when the mutex cannot be unlocked. -/
def withLock {α : Type} (body : Nati (Except Errno α)) :
    Nati (Except Errno α) := do
  if ← ask .mutexLock then
    let ret ← body
    return unlockResult (← ask .mutexUnlock) ret
  else return .error .einval

/-- The outcome satisfies `post` when it is a success, and `fail` when it is not. -/
def Ends {α : Type} (post : α → World → Prop) (fail : World → Prop)
    (outcome : Except Errno α × World) : Prop :=
  match outcome with
  | (.ok a, world) => post a world
  | (.error _, world) => fail world

theorem Ends.withLock {α : Type} {post : α → World → Prop} {fail : World → Prop}
    {body : Nati (Except Errno α)} {world : World}
    (refused : fail (ask .mutexLock world).2)
    (inner : Ends post fail (body (ask .mutexLock world).2))
    (kept : ∀ a world, post a world →
      post a (ask .mutexUnlock world).2 ∧ fail (ask .mutexUnlock world).2)
    (failed : ∀ world, fail world → fail (ask .mutexUnlock world).2) :
    Ends post fail (withLock body world) := by
  simp only [IpaNat.withLock, bind_apply, ite_apply, pure_apply]
  generalize ask .mutexLock world = locked at refused inner ⊢
  obtain ⟨lock, locked⟩ := locked
  cases lock with
  | false => exact refused
  | true =>
    simp only [if_true]
    generalize body locked = ran at inner ⊢
    obtain ⟨ret, ran⟩ := ran
    generalize (ask .mutexUnlock ran).1 = unlock
    cases ret with
    | error errno => exact failed ran inner
    | ok a =>
      cases unlock with
      | false => exact (kept a ran inner).2
      | true => exact (kept a ran inner).1

/-! ### The driver's functions -/

def askCalls : Nati DrvCalls := do
  let lock ← ask .mutexLock
  let dma ← ask .tableDmaCmd
  let unlock ← ask .mutexUnlock
  return { lock, dma, unlock }

def onDrv {α : Type} (operation : NatDrv → DrvCalls → NatDrv × α) : Nati α := do
  let calls ← askCalls
  let world ← get
  let (drv, ret) := operation world.drv calls
  set { world with drv := drv }
  return ret

/-- `ipa_NATI_add_ipv4_rule`, which returns the rule's handle. -/
def natiAddIpv4Rule (tblHdl : Nat) (clntRule : NatIpv4Rule) :
    Nati (Except Errno Nat) :=
  onDrv fun drv calls => drv.natiAddIpv4Rule tblHdl clntRule calls

/-- What `ipa_NATI_add_ipv4_rule` stores through the pointer it is given: it
clears the handle once it has checked the table handle. -/
def storeRuleHdl (tblHdl : Nat) (ret : Except Errno Nat) : Nati Unit :=
  modify fun world =>
    { world with
      out :=
        if !validTblHdl tblHdl then world.out
        else { world.out with ruleHdl := ret.toOption.getD 0 } }

/-- `ipa_NATI_del_ipv4_rule`. -/
def natiDelIpv4Rule (tblHdl ruleHdl : Nat) : Nati Status :=
  onDrv fun drv calls => drv.natiDelIpv4Rule tblHdl ruleHdl calls

/-- `ipa_NATI_clear_ipv4_tbl`. -/
def natiClearIpv4Tbl (tblHdl : Nat) : Nati Status :=
  onDrv fun drv calls => drv.natiClearIpv4Tbl tblHdl calls

/-- `ipa_NATI_query_timestamp`. -/
def natiQueryTimestamp (tblHdl ruleHdl : Nat) : Nati Status := do
  let ret ← onDrv fun drv calls =>
    (drv, drv.natiQueryTimestamp tblHdl ruleHdl calls)
  match ret with
  | .error errno => return .error errno
  | .ok timeStamp =>
    modify fun world =>
      { world with out := { world.out with timeStamp := timeStamp.toNat } }
    return .ok ()

/-- `ipa_NATI_post_ipv4_init_cmd`: make a table the one the hardware uses. -/
def natiPostIpv4InitCmd (tblHdl : Nat) : Nati Status := withLock do
  match (← get).drv.natTable tblHdl with
  | none => return .error .einval
  | some _ =>
    if ← ask .v4InitNat then
      modify fun world =>
        { world with
          drv := { world.drv with activeNatCache := some (tblHdlMem tblHdl) } }
      return .ok ()
    else return .error .eio

inductive WhichTbl2Use
  | useNatTable
  | useIndexTable
  deriving DecidableEq, Repr

/-- `ipa_table_walk` over the filled records of a table of the driver. -/
def walkTable {E U : Type} (ei : EntryInterface E U)
    (getTable : World → IpaTable E)
    (walkCb : IpaTable E → Nat → E → Nat → Nati Status) : Nati Status :=
  fun world =>
    let (world, ret) := IpaTable.walk ei getTable .slotFilled
      (fun world ruleHdl index =>
        let table := getTable world
        match walkCb table ruleHdl (table.entries index) index world with
        | (.ok (), world) => (world, none)
        | (.error errno, world) => (world, some errno))
      0 world
    match ret with
    | .error errno => (.error errno, world)
    | .ok none => (.ok (), world)
    | .ok (some errno) => (.error errno, world)

/-- `ipa_NATI_walk_ipv4_tbl` with a callback for each of the two tables. -/
def natiWalkIpv4Tbl (tblHdl : Nat) (which : WhichTbl2Use)
    (walkCb : IpaTable NatRule → Nat → NatRule → Nat → Nati Status)
    (indexWalkCb : IpaTable IndxTblRule → Nat → IndxTblRule → Nat →
      Nati Status) : Nati Status := do
  if !validTblHdl tblHdl then return .error .einval
  else withLock do
    let world ← get
    match world.drv.natTable tblHdl with
    | none => return .error .einval
    | some tbl =>
      let natTable := fun world : World =>
        (world.drv.natTable tblHdl).getD tbl
      match which with
      | .useNatTable =>
        walkTable (entryInterface world.drv.pdns)
          (fun world => (natTable world).table) walkCb
      | .useIndexTable =>
        walkTable indexEntryInterface
          (fun world => (natTable world).indexTable) indexWalkCb

/-- `ipa_nati_copy_ipv4_tbl`. -/
def natiCopyIpv4Tbl (srcTblHdl dstTblHdl : Nat)
    (copyCb : Nat → IpaTable NatRule → Nat → NatRule → Nat → Nati Status) :
    Nati Status := withLock do
  match ← natiClearIpv4Tbl dstTblHdl with
  | .error errno => return .error errno
  | .ok () =>
    natiWalkIpv4Tbl srcTblHdl .useNatTable (copyCb dstTblHdl)
      fun _ _ _ _ => return .ok ()

end VendorModules.IpaNat
