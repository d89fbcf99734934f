import VendorModules.Lib.Transition
import VendorModules.IpaNat.Carried
import VendorModules.IpaNat.StateMach

namespace VendorModules.IpaNat

open VendorModules.Lib

/-! Copying the rules of one table into the other, whatever becomes of the calls
on the way. -/

/-- Every table holds rules among `own`. -/
def CachesHold (own : NatIpv4Rule → Prop)
    (cache : MemIn → Option Ip4TableCache) : Prop :=
  ∀ mem tbl, cache mem = some tbl → tbl.Holding own mem

def StoredTblHdl (tblHdl : Nat) (mem : MemIn) : Prop :=
  tblHdl = 0 ∨ tblHdl = makeTblHdl 1 mem

structure World.Holding (own : NatIpv4Rule → Prop) (world : World) : Prop where
  tables : CachesHold own world.drv.cache
  ddrTblHdl : StoredTblHdl world.obj.ddrTblHdl .ddr
  sramTblHdl : StoredTblHdl world.obj.sramTblHdl .sram

theorem World.Holding.congr {own : NatIpv4Rule → Prop} {world world' : World}
    (holding : world.Holding own)
    (cache : world'.drv.cache = world.drv.cache)
    (ddr : world'.obj.ddrTblHdl = world.obj.ddrTblHdl)
    (sram : world'.obj.sramTblHdl = world.obj.sramTblHdl) :
    world'.Holding own :=
  ⟨cache ▸ holding.tables, ddr ▸ holding.ddrTblHdl, sram ▸ holding.sramTblHdl⟩

theorem StoredTblHdl.mem {tblHdl : Nat} {mem : MemIn}
    (stored : StoredTblHdl tblHdl mem) (valid : validTblHdl tblHdl = true) :
    tblHdlMem tblHdl = mem := by
  rcases stored with rfl | rfl
  · cases valid
  · cases mem <;> rfl

/-! ### The driver's operations -/

namespace CachesHold

variable {own : NatIpv4Rule → Prop} {cache : MemIn → Option Ip4TableCache}

theorem update (hold : CachesHold own cache) {mem : MemIn} {tbl : Ip4TableCache}
    (holding : tbl.Holding own mem) :
    CachesHold own (Function.update cache mem (some tbl)) := by
  intro other tbl' found
  by_cases same : other = mem
  · subst same
    rw [Function.update_self, Option.some.injEq] at found
    exact found ▸ holding
  · rw [Function.update_of_ne same] at found
    exact hold other tbl' found

theorem erase (hold : CachesHold own cache) (mem : MemIn) :
    CachesHold own (Function.update cache mem none) := by
  intro other tbl found
  by_cases same : other = mem
  · subst same
    rw [Function.update_self] at found
    cases found
  · rw [Function.update_of_ne same] at found
    exact hold other tbl found

variable {drv : NatDrv} (hold : CachesHold own drv.cache)
include hold

theorem add (tblHdl : Nat) {added clntRule : NatIpv4Rule}
    (brings : added.BringsIn clntRule) (owned : own clntRule)
    (calls : DrvCalls) :
    CachesHold own (drv.natiAddIpv4Rule tblHdl added calls).1.cache ∧
    (∀ mem, mem ≠ tblHdlMem tblHdl →
      (drv.natiAddIpv4Rule tblHdl added calls).1.cache mem = drv.cache mem) ∧
    ∀ ruleHdl, (drv.natiAddIpv4Rule tblHdl added calls).2 = .ok ruleHdl →
      ∃ tbl tbl' e, drv.cache (tblHdlMem tblHdl) = some tbl ∧
        (drv.natiAddIpv4Rule tblHdl added calls).1.cache (tblHdlMem tblHdl) =
          some tbl' ∧
        ruleHdl = tbl.table.makeEntryHdl e ∧ tbl.Gained tbl' clntRule e := by
  rcases drv.natiAddIpv4Rule_cases tblHdl added calls with
    refused | ⟨tbl, tbl', token, ret, found, valid, result, effect⟩
  · have refused := refused calls.unlock
    rw [show ({ calls with unlock := calls.unlock } : DrvCalls) = calls from rfl]
      at refused
    rw [refused]
    exact ⟨hold, fun _ _ => rfl, fun _ success => by cases success⟩
  · have effect := effect calls.unlock
    rw [show ({ calls with unlock := calls.unlock } : DrvCalls) = calls from rfl]
      at effect
    rw [effect]
    obtain ⟨holding, outcome⟩ :=
      (hold _ tbl found).addRule valid brings owned result
    refine ⟨hold.update holding,
      fun mem different => Function.update_of_ne different _ _, ?_⟩
    intro ruleHdl success
    rcases outcome with ⟨⟨errno, rfl⟩, -⟩ | ⟨e, rfl, gained⟩
    · cases success
    · change unlockResult calls.unlock (.ok _) = .ok ruleHdl at success
      have given := unlockResult_ok success
      rw [Except.ok.injEq] at given
      exact ⟨tbl, tbl', e, found, Function.update_self _ _ _, given.symm, gained⟩

theorem del (tblHdl ruleHdl : Nat) (calls : DrvCalls) :
    CachesHold own (drv.natiDelIpv4Rule tblHdl ruleHdl calls).1.cache := by
  rcases drv.natiDelIpv4Rule_cases tblHdl ruleHdl calls with
    refused | ⟨tbl, tbl', ret, found, result, effect⟩
  · exact (refused calls.unlock).symm ▸ hold
  · exact (effect calls.unlock).symm ▸
      hold.update ((hold _ tbl found).delRule result)

theorem clear (tblHdl : Nat) (calls : DrvCalls) :
    CachesHold own (drv.natiClearIpv4Tbl tblHdl calls).1.cache ∧
    (∀ mem, mem ≠ tblHdlMem tblHdl →
      (drv.natiClearIpv4Tbl tblHdl calls).1.cache mem = drv.cache mem) ∧
    ((drv.natiClearIpv4Tbl tblHdl calls).2 = .ok () →
      ∃ tbl', (drv.natiClearIpv4Tbl tblHdl calls).1.cache (tblHdlMem tblHdl) =
        some tbl' ∧ ∀ i, ¬tbl'.table.Live i) := by
  rcases drv.natiClearIpv4Tbl_cases tblHdl calls with refused | ⟨tbl, found, effect⟩
  · have refused := refused calls.unlock
    rw [show ({ calls with unlock := calls.unlock } : DrvCalls) = calls from rfl]
      at refused
    rw [refused]
    exact ⟨hold, fun _ _ => rfl, fun success => by cases success⟩
  · have effect := effect calls.unlock
    rw [show ({ calls with unlock := calls.unlock } : DrvCalls) = calls from rfl]
      at effect
    rw [effect]
    obtain ⟨holding, noneLive⟩ := (hold _ tbl found).clear drv.pdns
    exact ⟨hold.update holding,
      fun mem different => Function.update_of_ne different _ _,
      fun _ => ⟨_, Function.update_self _ _ _, noneLive⟩⟩

end CachesHold

/-! ### Walking -/

section Walk

variable {E U : Type} {ei : EntryInterface E U} {getTable : World → IpaTable E}
  {walkCb : IpaTable E → Nat → E → Nat → Nati Status} {table : IpaTable E}
  {inv : Nat → World → Prop} {bad : World → Prop}

theorem walkFrom_spec
    (fixed : ∀ i world, inv i world → getTable world = table)
    (visit : ∀ i world, i < table.totTblEnts → inv i world →
      table.isFilled ei i = true →
      Ends (fun _ => inv (i + 1)) bad
        (walkCb table (table.makeEntryHdl i) (table.entries i) i world))
    (skip : ∀ i world, i < table.totTblEnts → inv i world →
      table.isFilled ei i = false → inv (i + 1) world)
    (count i : Nat) (world : World) (total : i + count = table.totTblEnts) (holds : inv i world) :
    match IpaTable.walkFrom ei getTable .slotFilled
      (fun world ruleHdl index =>
        match walkCb (getTable world) ruleHdl
            ((getTable world).entries index) index world with
        | (.ok (), world) => (world, none)
        | (.error errno, world) => (world, some errno)) count i world with
    | (world', none) => inv table.totTblEnts world'
    | (world', some _) => bad world' := by
  induction count generalizing i world with
  | zero =>
    rw [← total]
    exact holds
  | succ count induction =>
    have inside : i < table.totTblEnts := by omega
    have same := fixed i world holds
    cases filled : table.isFilled ei i with
    | false =>
      simp only [IpaTable.walkFrom, same, filled, decide_true,
        Bool.false_eq_true, if_false]
      exact induction (i + 1) world (by omega)
        (skip i world inside holds filled)
    | true =>
      have visited := visit i world inside holds filled
      simp only [IpaTable.walkFrom, same, filled, decide_true, if_true]
      generalize walkCb table (table.makeEntryHdl i) (table.entries i) i
        world = result at visited ⊢
      rcases result with ⟨_ | _, world'⟩
      · exact visited
      · exact induction (i + 1) world' (by omega) visited

theorem walkTable_spec
    (fixed : ∀ i world, inv i world → getTable world = table)
    (visit : ∀ i world, i < table.totTblEnts → inv i world →
      table.isFilled ei i = true →
      Ends (fun _ => inv (i + 1)) bad
        (walkCb table (table.makeEntryHdl i) (table.entries i) i world))
    (skip : ∀ i world, i < table.totTblEnts → inv i world →
      table.isFilled ei i = false → inv (i + 1) world)
    {world : World} (start : inv 0 world) :
    Ends (fun _ => inv table.totTblEnts) bad
      (walkTable ei getTable walkCb world) := by
  have total := table.tableEntries_lt_totTblEnts
  have ran := walkFrom_spec fixed visit skip table.totTblEnts 0 world (Nat.zero_add _) start
  have same := fixed 0 world start
  simp only [walkTable, IpaTable.walk, same, if_neg (Nat.not_le.mpr
    (Nat.lt_of_le_of_lt (Nat.zero_le _) total)), Nat.sub_zero]
  generalize IpaTable.walkFrom ei getTable .slotFilled _ table.totTblEnts 0 world
    = walked at ran ⊢
  rcases walked with ⟨world', _ | errno⟩
  · exact ran
  · exact ran

end Walk

/-! ### Migrating one rule -/

theorem NatRule.CarriesRule.rebuilt {rule : NatRule} {clntRule : NatIpv4Rule}
    (carries : rule.CarriesRule clntRule) :
    (rebuildRule rule).BringsIn clntRule := by
  intro pdns old last indx
  refine ⟨carries.privateIp, carries.privatePort, carries.publicPort,
    carries.targetIp, carries.targetPort, carries.protocol, ?_, ?_, carries.s,
    carries.ucp, carries.dstOnly, carries.srcOnly, rfl, ?_⟩
  · rw [← carries.pdnIndex]
    simp [insertedRule, tableEntryCopyFromUser, rebuildRule]
  · rw [← carries.ucActivationIndex]
    simp [insertedRule, tableEntryCopyFromUser, rebuildRule]
  · simp [insertedRule, rebuildRule, carries.timeStamp]

/-- The rules of `src`, the table of the memory `mem`, are in the other table as
far as the records below `i` go, and nothing else is. -/
structure Migrating (own : NatIpv4Rule → Prop) (mem : MemIn)
    (src : Ip4TableCache) (i : Nat) (world : World) : Prop where
  holding : world.Holding own
  source : world.drv.cache mem = some src
  moved : ∃ dst f, world.drv.cache mem.other = some dst ∧
    Set.BijOn f {k | src.table.Live k ∧ k < i} {e | dst.table.Live e} ∧
    ∀ k, src.table.Live k → k < i → ∃ clntRule, own clntRule ∧
      (src.table.entries k).CarriesRule clntRule ∧
      (dst.table.entries (f k)).CarriesRule clntRule

namespace Migrating

variable {own : NatIpv4Rule → Prop} {mem : MemIn} {src : Ip4TableCache}
  {i : Nat} {world world' : World}

theorem skip (migrating : Migrating own mem src i world)
    (dead : ¬src.table.Live i) : Migrating own mem src (i + 1) world := by
  obtain ⟨dst, f, found, bij, carry⟩ := migrating.moved
  have same : {k | src.table.Live k ∧ k < i + 1} =
      {k | src.table.Live k ∧ k < i} := by
    ext k
    refine and_congr_right fun live => ⟨fun below => ?_, fun below => by omega⟩
    rcases Nat.lt_succ_iff_lt_or_eq.mp below with less | rfl
    · exact less
    · exact absurd live dead
  refine ⟨migrating.holding, migrating.source, dst, f, found, same ▸ bij, ?_⟩
  intro k live below
  have member : k ∈ {k | src.table.Live k ∧ k < i} := same ▸ ⟨live, below⟩
  exact carry k live member.2

theorem congr (migrating : Migrating own mem src i world)
    (cache : world'.drv.cache = world.drv.cache)
    (holding : world'.Holding own) : Migrating own mem src i world' := by
  refine ⟨holding, cache ▸ migrating.source, ?_⟩
  rw [cache]
  exact migrating.moved

theorem gain (migrating : Migrating own mem src i world)
    (live : src.table.Live i) {clntRule : NatIpv4Rule} (owned : own clntRule)
    (carries : (src.table.entries i).CarriesRule clntRule)
    {dst dst' : Ip4TableCache} {e : Nat}
    (found : world.drv.cache mem.other = some dst)
    (gained : dst.Gained dst' clntRule e)
    (source : world'.drv.cache mem = some src)
    (found' : world'.drv.cache mem.other = some dst')
    (holding : world'.Holding own) :
    Migrating own mem src (i + 1) world' := by
  obtain ⟨old, f, foundOld, bij, carry⟩ := migrating.moved
  rw [found, Option.some.injEq] at foundOld
  subst foundOld
  refine ⟨holding, source, dst', Function.update f i e, found', ?_, ?_⟩
  · have domain : {k | src.table.Live k ∧ k < i + 1} =
        insert i {k | src.table.Live k ∧ k < i} := by
      ext k
      simp only [Set.mem_ofPred_eq, Set.mem_insert_iff, Nat.lt_succ_iff_lt_or_eq]
      constructor
      · rintro ⟨kLive, below | rfl⟩
        · exact Or.inr ⟨kLive, below⟩
        · exact Or.inl rfl
      · rintro (rfl | ⟨kLive, below⟩)
        · exact ⟨live, Or.inr rfl⟩
        · exact ⟨kLive, Or.inl below⟩
    have range : {k | dst'.table.Live k} =
        insert (Function.update f i e i) {k | dst.table.Live k} := by
      ext k
      rw [Function.update_self]
      exact (gained.live k).trans or_comm
    have frame : Set.EqOn f (Function.update f i e)
        {k | src.table.Live k ∧ k < i} := by
      rintro k ⟨-, below⟩
      rw [Function.update_of_ne below.ne]
    rw [domain, range]
    refine (bij.congr frame).insert ?_
    rw [Function.update_self]
    exact gained.fresh
  · intro k kLive below
    rcases Nat.lt_succ_iff_lt_or_eq.mp below with less | rfl
    · obtain ⟨rule, ruleOwned, srcCarries, dstCarries⟩ := carry k kLive less
      rw [Function.update_of_ne less.ne]
      have target : dst.table.Live (f k) := bij.mapsTo ⟨kLive, less⟩
      have different : f k ≠ e := by
        intro same
        rw [same] at target
        exact gained.fresh target
      exact ⟨rule, ruleOwned, srcCarries,
        dstCarries.moved (gained.others (f k) different).moved⟩
    · rw [Function.update_self]
      exact ⟨clntRule, owned, carries, gained.carries⟩

variable {tblHdl : Nat} (target : tblHdlMem tblHdl = mem.other)
include target

theorem migrateRule (migrating : Migrating own mem src i world)
    (inside : i < src.table.totTblEnts) {pdns : Pdns}
    (filled : src.table.isFilled (entryInterface pdns) i = true)
    (tblRuleHdl index : Nat) :
    Ends (fun _ => Migrating own mem src (i + 1)) (World.Holding own)
      (migrateRule tblHdl src.table tblRuleHdl (src.table.entries i) index
        world) := by
  have nmi := (migrating.holding.tables mem src migrating.source).nmi
  by_cases dead : (src.table.entries i).protocol = natInvalidProtocol
  · simp only [VendorModules.IpaNat.migrateRule, dead, if_true, pure_apply]
    exact migrating.skip fun live => live.2.2 dead
  · have live : src.table.Live i := ⟨inside, filled, dead⟩
    obtain ⟨clntRule, owned, carries⟩ :=
      (migrating.holding.tables mem src migrating.source).carried i live
    simp only [VendorModules.IpaNat.migrateRule, dead, if_false, bind_apply,
      get_apply, nmi]
    cases (world.obj.mapPairs mem).new2orig.find tblRuleHdl with
    | error errno => exact migrating.holding
    | ok origRuleHdl =>
      simp only [bind_apply]
      obtain ⟨hold, frame, success⟩ := migrating.holding.tables.add tblHdl
        carries.rebuilt owned (askCalls world).1
      have drv : (natiAddIpv4Rule tblHdl (rebuildRule (src.table.entries i))
        world).2.drv = (world.drv.natiAddIpv4Rule tblHdl
          (rebuildRule (src.table.entries i)) (askCalls world).1).1 := rfl
      have obj : (natiAddIpv4Rule tblHdl (rebuildRule (src.table.entries i))
        world).2.obj = world.obj := rfl
      have ret : (natiAddIpv4Rule tblHdl (rebuildRule (src.table.entries i))
        world).1 = (world.drv.natiAddIpv4Rule tblHdl
          (rebuildRule (src.table.entries i)) (askCalls world).1).2 := rfl
      rw [← drv] at hold frame success
      rw [← ret] at success
      generalize natiAddIpv4Rule tblHdl (rebuildRule (src.table.entries i))
        world = added at hold frame success obj ⊢
      obtain ⟨result, next⟩ := added
      have nextHolding : next.Holding own :=
        ⟨hold, obj ▸ migrating.holding.ddrTblHdl,
          obj ▸ migrating.holding.sramTblHdl⟩
      cases result with
      | error errno => exact nextHolding
      | ok newRuleHdl =>
        obtain ⟨dst, dst', e, found, found', -, gained⟩ :=
          success newRuleHdl rfl
        rw [target] at found found'
        have source : next.drv.cache mem = some src := by
          rw [frame mem (by rw [target]; exact mem.other_ne.symm)]
          exact migrating.source
        have moved := migrating.gain live owned carries found gained source
          found' nextHolding
        simp only [bind_apply, modifyObj_apply, mapAddOrig2new, get_apply,
          pure_apply]
        generalize NatMap.add _ origRuleHdl newRuleHdl = orig
        obtain ⟨map, _ | _⟩ := orig
        · exact nextHolding.congr rfl rfl rfl
        · simp only [mapAddNew2orig, bind_apply, modifyObj_apply, get_apply,
            pure_apply]
          generalize NatMap.add _ newRuleHdl origRuleHdl = new
          obtain ⟨map', _ | _⟩ := new
          · exact nextHolding.congr rfl rfl rfl
          · exact moved.congr rfl (nextHolding.congr rfl rfl rfl)

end Migrating

/-! ### Copying a table -/

section Copy

variable {own : NatIpv4Rule → Prop} {mem : MemIn} {src : Ip4TableCache}
  {world : World} {srcTblHdl dstTblHdl : Nat}

theorem natiWalkIpv4Tbl_migrate (start : Migrating own mem src 0 world)
    (stored : StoredTblHdl srcTblHdl mem) (target : tblHdlMem dstTblHdl = mem.other)
    (indexWalkCb : IpaTable IndxTblRule → Nat → IndxTblRule → Nat →
      Nati Status) :
    Ends (fun _ => Migrating own mem src src.table.totTblEnts)
      (World.Holding own)
      (natiWalkIpv4Tbl srcTblHdl .useNatTable (migrateRule dstTblHdl)
        indexWalkCb world) := by
  have asked : ∀ (call : ExtCall) (i : Nat) (world : World),
      Migrating own mem src i world → Migrating own mem src i (ask call world).2 :=
    fun _ _ _ migrating =>
      migrating.congr rfl (migrating.holding.congr rfl rfl rfl)
  cases valid : validTblHdl srcTblHdl with
  | false =>
    simp only [natiWalkIpv4Tbl, valid, Bool.not_false, if_true, pure_apply]
    exact start.holding
  | true =>
    simp only [natiWalkIpv4Tbl, valid, Bool.not_true, Bool.false_eq_true,
      if_false]
    have found : ∀ i world, Migrating own mem src i world →
        world.drv.natTable srcTblHdl = some src := by
      intro i world migrating
      rw [NatDrv.natTable, valid, if_pos rfl, stored.mem valid]
      exact migrating.source
    have taken := asked .mutexLock 0 world start
    refine Ends.withLock taken.holding ?_
      (fun _ world migrating =>
        ⟨asked _ _ world migrating, (asked _ _ world migrating).holding⟩)
      fun _ holding => holding.congr rfl rfl rfl
    simp only [bind_apply, get_apply, found 0 _ taken]
    refine walkTable_spec ?_ ?_ ?_ taken
    · intro i world migrating
      rw [found i world migrating]
      rfl
    · exact fun i world inside migrating filled =>
        migrating.migrateRule target inside filled _ i
    · refine fun i world inside migrating vacant => migrating.skip fun live => ?_
      rw [IpaTable.isFilled] at vacant
      exact Bool.false_ne_true (vacant.symm.trans live.2.1)

theorem natiWalkIpv4Tbl_absent (holding : world.Holding own)
    (stored : StoredTblHdl srcTblHdl mem) (absent : world.drv.cache mem = none)
    (which : WhichTbl2Use)
    (walkCb : IpaTable NatRule → Nat → NatRule → Nat → Nati Status)
    (indexWalkCb : IpaTable IndxTblRule → Nat → IndxTblRule → Nat →
      Nati Status) :
    Ends (fun _ _ => False) (World.Holding own)
      (natiWalkIpv4Tbl srcTblHdl which walkCb indexWalkCb world) := by
  have missing : (ask .mutexLock world).2.drv.natTable srcTblHdl = none := by
    rw [NatDrv.natTable]
    split
    · next valid =>
      rw [stored.mem valid]
      exact absent
    · rfl
  simp only [natiWalkIpv4Tbl, ite_apply, pure_apply]
  cases validTblHdl srcTblHdl with
  | false => exact holding
  | true =>
    refine Ends.withLock (holding.congr rfl rfl rfl) ?_ (by simp)
      fun _ holding => holding.congr rfl rfl rfl
    simp only [bind_apply, get_apply, missing, pure_apply]
    exact holding.congr rfl rfl rfl

theorem natiClearIpv4Tbl_valid {drv : NatDrv} {tblHdl : Nat} {calls : DrvCalls}
    (success : (drv.natiClearIpv4Tbl tblHdl calls).2 = .ok ()) :
    validTblHdl tblHdl = true := by
  cases valid : validTblHdl tblHdl with
  | true => rfl
  | false =>
    rw [NatDrv.natiClearIpv4Tbl, NatDrv.natTable, valid] at success
    split at success
    · cases success
    · cases success

/-- A copy that succeeds has moved every rule of the source table, and one that
fails has left no foreign rule behind. -/
theorem natiCopyIpv4Tbl_migrate (holding : world.Holding own)
    (storedSrc : StoredTblHdl srcTblHdl mem)
    (storedDst : StoredTblHdl dstTblHdl mem.other) :
    Ends
      (fun _ world' => ∃ src, world.drv.cache mem = some src ∧
        Migrating own mem src src.table.totTblEnts world')
      (World.Holding own)
      (natiCopyIpv4Tbl srcTblHdl dstTblHdl migrateRule world) := by
  have taken : (ask .mutexLock world).2.Holding own := holding.congr rfl rfl rfl
  refine Ends.withLock taken ?_ ?_ fun _ holding => holding.congr rfl rfl rfl
  · have same : (ask .mutexLock world).2.drv = world.drv := rfl
    generalize (ask .mutexLock world).2 = locked at taken same ⊢
    simp only [bind_apply]
    obtain ⟨hold, frame, emptied⟩ :=
      taken.tables.clear dstTblHdl (askCalls locked).1
    have drv : (natiClearIpv4Tbl dstTblHdl locked).2.drv =
      (locked.drv.natiClearIpv4Tbl dstTblHdl (askCalls locked).1).1 := rfl
    have ret : (natiClearIpv4Tbl dstTblHdl locked).1 =
      (locked.drv.natiClearIpv4Tbl dstTblHdl (askCalls locked).1).2 := rfl
    have cleared : (natiClearIpv4Tbl dstTblHdl locked).2.Holding own :=
      ⟨drv ▸ hold, taken.ddrTblHdl, taken.sramTblHdl⟩
    have valid : (natiClearIpv4Tbl dstTblHdl locked).1 = .ok () →
        validTblHdl dstTblHdl = true :=
      fun success => natiClearIpv4Tbl_valid (ret ▸ success)
    rw [← drv] at frame emptied
    rw [← ret] at emptied
    generalize natiClearIpv4Tbl dstTblHdl locked = clearing at *
    obtain ⟨result, next⟩ := clearing
    cases result with
    | error errno => exact cleared
    | ok =>
      have target := storedDst.mem (valid rfl)
      obtain ⟨dst, found, noneLive⟩ := emptied rfl
      rw [target] at found
      have source : next.drv.cache mem = world.drv.cache mem := by
        rw [frame mem (by rw [target]; exact mem.other_ne.symm), same]
      cases absent : next.drv.cache mem with
      | none =>
        have walked := natiWalkIpv4Tbl_absent cleared storedSrc absent
          .useNatTable (migrateRule dstTblHdl) fun _ _ _ _ => pure (.ok ())
        simp only
        generalize natiWalkIpv4Tbl srcTblHdl _ _ _ next = walk at walked ⊢
        obtain ⟨_ | _, next⟩ := walk
        · exact walked
        · exact walked.elim
      | some src =>
        have start : Migrating own mem src 0 next := by
          refine ⟨cleared, absent, dst, fun k => k, found, ?_, ?_⟩
          · refine ⟨fun k bounded => absurd bounded.2 (Nat.not_lt_zero k),
              fun k bounded => absurd bounded.2 (Nat.not_lt_zero k), ?_⟩
            intro e live
            exact absurd live (noneLive e)
          · intro k _ bounded
            exact absurd bounded (Nat.not_lt_zero k)
        have walked := natiWalkIpv4Tbl_migrate start storedSrc target
          fun _ _ _ _ => pure (.ok ())
        simp only
        generalize natiWalkIpv4Tbl srcTblHdl _ _ _ next = walk at walked ⊢
        obtain ⟨_ | _, next⟩ := walk
        · exact walked
        · exact ⟨src, source ▸ absent, walked⟩
  · rintro - world' ⟨src, found, migrating⟩
    have given : (ask .mutexUnlock world').2.Holding own :=
      migrating.holding.congr rfl rfl rfl
    exact ⟨⟨src, found, migrating.congr rfl given⟩, given⟩

end Copy

end VendorModules.IpaNat
