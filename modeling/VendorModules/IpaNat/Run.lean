import VendorModules.Lib.Transition
import VendorModules.IpaNat.Driver
import VendorModules.IpaNat.Consistent

namespace VendorModules.IpaNat

open VendorModules.Lib

/-! Runs of the table operations, with the rules that are in each table. -/

/-- The driver, and for each table the rules that were put into it and not
taken out since, each with the handle it was given. -/
structure NatRun where
  drv : NatDrv
  live : MemIn → List (Nat × NatIpv4Rule)

namespace NatRun

def add (run : NatRun) (tblHdl : Nat) (clntRule : NatIpv4Rule)
    (calls : DrvCalls) : NatRun where
  drv := (run.drv.natiAddIpv4Rule tblHdl clntRule calls).1
  live :=
    match (run.drv.natiAddIpv4Rule tblHdl clntRule calls.unlocked).2 with
    | .ok ruleHdl =>
      Function.update run.live (tblHdlMem tblHdl)
        ((ruleHdl, clntRule) :: run.live (tblHdlMem tblHdl))
    | .error _ => run.live

def del (run : NatRun) (tblHdl ruleHdl : Nat) (calls : DrvCalls) : NatRun where
  drv := (run.drv.natiDelIpv4Rule tblHdl ruleHdl calls).1
  live :=
    match (run.drv.natiDelIpv4Rule tblHdl ruleHdl calls.unlocked).2 with
    | .ok () =>
      Function.update run.live (tblHdlMem tblHdl)
        ((run.live (tblHdlMem tblHdl)).filter fun held => held.1 ≠ ruleHdl)
    | .error _ => run.live

def clear (run : NatRun) (tblHdl : Nat) (calls : DrvCalls) : NatRun where
  drv := (run.drv.natiClearIpv4Tbl tblHdl calls).1
  live :=
    match (run.drv.natiClearIpv4Tbl tblHdl calls.unlocked).2 with
    | .ok () => Function.update run.live (tblHdlMem tblHdl) []
    | .error _ => run.live

/-- Tables as `ipa_nati_create_table` leaves them. -/
structure Start (run : NatRun) : Prop where
  created : ∀ mem, run.drv.cache mem = none ∨
    ∃ geometry, run.drv.cache mem = some (Ip4TableCache.create mem geometry)
  nothing : ∀ mem, run.live mem = []

/-- One call in which the DMA commands are carried out. Clients delete with the
handles of rules that are in the table. -/
inductive Step (run : NatRun) : NatRun → Prop
  | add (tblHdl : Nat) (clntRule : NatIpv4Rule) (calls : DrvCalls)
      (dma : calls.dma = true) : Step run (run.add tblHdl clntRule calls)
  | del (tblHdl ruleHdl : Nat) (calls : DrvCalls) (dma : calls.dma = true)
      (held : ruleHdl ∈ (run.live (tblHdlMem tblHdl)).map Prod.fst) :
      Step run (run.del tblHdl ruleHdl calls)
  | clear (tblHdl : Nat) (calls : DrvCalls) :
      Step run (run.clear tblHdl calls)

end NatRun

/-! ### What a table knows of its rules -/

/-- The record of a rule: written by the addition of the rule, and changed by
nothing but the upkeep of the links since. -/
def NatRule.Holds (pdns : Pdns) (clntRule : NatIpv4Rule) (rule : NatRule) : Prop :=
  ∃ old last indx, (insertedRule pdns old clntRule last indx).Moved rule

section Lookup

variable (verAtLeast40 : Bool) (pdns : Pdns) (tbl : Ip4TableCache)
  (clntRule : NatIpv4Rule)

def Ip4TableCache.dstBucket : Nat :=
  dstHash verAtLeast40 (pdns clntRule.pdnIndex.toNat) clntRule.targetIp
    clntRule.targetPort clntRule.publicPort clntRule.protocol
    (tbl.table.tableEntries - 1)

def Ip4TableCache.srcBucket : Nat :=
  srcHash clntRule.privateIp clntRule.privatePort clntRule.targetIp
    clntRule.targetPort clntRule.protocol (tbl.table.tableEntries - 1)

end Lookup

/-- The rules `live` with their handles are what the table holds, each on the
chains of its buckets. -/
structure Tracked (verAtLeast40 : Bool) (pdns : Pdns) (tbl : Ip4TableCache)
    (live : List (Nat × NatIpv4Rule)) (chain indexChain : Nat → List Nat) :
    Prop where
  consistent : Consistent pdns tbl chain indexChain
  handles : (live.map Prod.fst).Nodup
  held : ∀ ruleHdl clntRule, (ruleHdl, clntRule) ∈ live →
    ∃ e, ruleHdl = tbl.table.makeEntryHdl e ∧ tbl.table.Live e ∧
      NatRule.Holds pdns clntRule (tbl.table.entries e) ∧
      (clntRule.srcOnly = false →
        e ∈ chain (tbl.dstBucket verAtLeast40 pdns clntRule)) ∧
      (clntRule.dstOnly = false →
        (tbl.table.entries e).indxTblEntry ∈ indexChain (tbl.srcBucket clntRule))
  known : ∀ e, tbl.table.Live e →
    tbl.table.makeEntryHdl e ∈ live.map Prod.fst

namespace Tracked

variable {verAtLeast40 : Bool} {pdns : Pdns} {tbl tbl' : Ip4TableCache}
  {live : List (Nat × NatIpv4Rule)} {chain indexChain : Nat → List Nat}

theorem nothing (consistent : Consistent pdns tbl chain indexChain)
    (noneLive : ∀ i, ¬tbl.table.Live i) :
    Tracked verAtLeast40 pdns tbl [] chain indexChain where
  consistent := consistent
  handles := List.nodup_nil
  held := by simp
  known := fun e isLive => absurd isLive (noneLive e)

theorem buckets_same (verAtLeast40 : Bool) (pdns : Pdns)
    (same : IpaTable.SameTable tbl.table tbl'.table)
    (clntRule : NatIpv4Rule) :
    tbl'.dstBucket verAtLeast40 pdns clntRule =
        tbl.dstBucket verAtLeast40 pdns clntRule ∧
      tbl'.srcBucket clntRule = tbl.srcBucket clntRule := by
  simp only [Ip4TableCache.dstBucket, Ip4TableCache.srcBucket,
    same.tableEntries, and_self]

theorem entryBucket_eq (drv : NatDrv) (tbl : Ip4TableCache)
    {clntRule : NatIpv4Rule} (found : clntRule.srcOnly = false) :
    tbl.entryBucket drv clntRule =
      tbl.dstBucket drv.verAtLeast40 drv.pdns clntRule := by
  simp [Ip4TableCache.entryBucket, Ip4TableCache.dstBucket, found]

theorem indexBucket_eq (tbl : Ip4TableCache) (token : Nat)
    {clntRule : NatIpv4Rule} (found : clntRule.dstOnly = false) :
    tbl.indexBucket token clntRule = tbl.srcBucket clntRule := by
  simp [Ip4TableCache.indexBucket, Ip4TableCache.srcBucket, found]

theorem addRule {drv : NatDrv} {clntRule : NatIpv4Rule} {dma : Bool}
    {token : Nat} {ret : Except Errno Nat}
    (tracked : Tracked drv.verAtLeast40 drv.pdns tbl live chain indexChain)
    (valid : clntRule.protocol ≠ natInvalidProtocol)
    (result : tbl.addRule drv clntRule dma = (tbl', token, ret)) :
    ∃ chain' indexChain', Tracked drv.verAtLeast40 drv.pdns tbl'
      (match ret with
        | .ok ruleHdl => (ruleHdl, clntRule) :: live
        | .error _ => live) chain' indexChain' := by
  rcases tracked.consistent.addRule valid result with
    ⟨⟨errno, rfl⟩, consistent, same, liveIff, entries⟩ |
      ⟨-, e, b, c, hb, hc, rfl, inside, free, consistent, same, liveIff, entry,
        others⟩
  · refine ⟨chain, indexChain, consistent, tracked.handles, ?_, ?_⟩
    · intro ruleHdl rule member
      obtain ⟨i, rfl, isLive, holds, dst, src⟩ := tracked.held ruleHdl rule member
      obtain ⟨dstSame, srcSame⟩ :=
        buckets_same drv.verAtLeast40 drv.pdns same rule
      rw [dstSame, srcSame]
      refine ⟨i, (same.makeEntryHdl i).symm, (liveIff i).mpr isLive, ?_⟩
      rw [entries i isLive]
      exact ⟨holds, dst, src⟩
    · intro i isLive
      rw [same.makeEntryHdl]
      exact tracked.known i ((liveIff i).mp isLive)
  · have fresh : tbl.table.makeEntryHdl e ∉ live.map Prod.fst := by
      intro member
      obtain ⟨⟨ruleHdl, rule⟩, inLive, atE⟩ := List.mem_map.mp member
      obtain ⟨i, rfl, isLive, -⟩ := tracked.held ruleHdl rule inLive
      rw [← tbl.table.makeEntryHdl_inj isLive.1 inside atE] at free
      exact free isLive
    have stays : ∀ {chain : Nat → List Nat} {b b' i j : Nat}, i ∈ chain b' →
        i ∈ Function.update chain b (chain b ++ [j]) b' := by
      intro chain b b' i j member
      by_cases same : b' = b
      · subst same
        rw [Function.update_self]
        exact List.mem_append_left _ member
      · rwa [Function.update_of_ne same]
    refine ⟨_, _, consistent, List.nodup_cons.mpr ⟨fresh, tracked.handles⟩,
      ?_, ?_⟩
    · intro ruleHdl rule member
      obtain ⟨dstSame, srcSame⟩ :=
        buckets_same drv.verAtLeast40 drv.pdns same rule
      rw [dstSame, srcSame]
      rcases List.mem_cons.mp member with isNew | inLive
      · obtain ⟨rfl, rfl⟩ := Prod.mk.injEq .. ▸ isNew
        obtain ⟨last, entry⟩ := entry
        have holds : NatRule.Holds drv.pdns rule (tbl'.table.entries e) := by
          refine ⟨tbl.table.entries e, last, (tbl'.table.entries e).indxTblEntry, ?_⟩
          rw [← entry]
          exact NatRule.Moved.refl _
        refine ⟨e, (same.makeEntryHdl e).symm, (liveIff e).mpr (Or.inr rfl),
          holds, ?_, ?_⟩
        · intro found
          rw [hb, ← entryBucket_eq drv tbl found, Function.update_self]
          exact List.mem_append_right _ (List.mem_singleton_self e)
        · intro found
          rw [hc, ← indexBucket_eq tbl _ found, Function.update_self]
          exact List.mem_append_right _ (List.mem_singleton_self _)
      · obtain ⟨i, rfl, isLive, ⟨old, last, indx, moved⟩, dst, src⟩ :=
          tracked.held ruleHdl rule inLive
        have different : i ≠ e := by
          rintro rfl
          exact free isLive
        obtain ⟨relinked, indxSame⟩ := others i different
        refine ⟨i, (same.makeEntryHdl i).symm, (liveIff i).mpr (Or.inl isLive),
          ⟨old, last, indx, moved.trans relinked.moved⟩,
          fun found => stays (dst found), fun found => ?_⟩
        rw [indxSame]
        exact stays (src found)
    · intro i isLive
      rw [same.makeEntryHdl]
      rcases (liveIff i).mp isLive with wasLive | rfl
      · exact List.mem_cons_of_mem _ (tracked.known i wasLive)
      · exact List.mem_cons_self

theorem delRule {ruleHdl : Nat} {ret : Except Errno Unit}
    (tracked : Tracked verAtLeast40 pdns tbl live chain indexChain)
    (member : ruleHdl ∈ live.map Prod.fst)
    (result : tbl.delRule pdns ruleHdl true = (tbl', ret)) :
    ret = .ok () ∧ ∃ chain' indexChain', Tracked verAtLeast40 pdns tbl'
      (live.filter fun held => held.1 ≠ ruleHdl) chain' indexChain' := by
  obtain ⟨⟨hdl, rule⟩, inLive, rfl⟩ := List.mem_map.mp member
  obtain ⟨e, rfl, isLive, -⟩ := tracked.held hdl rule inLive
  obtain ⟨rfl, chain', indexChain', consistent, same, liveIff, moved, dstStays,
    srcStays⟩ := tracked.consistent.delRule
      (tbl.table.getEntry_makeEntryHdl isLive.1) isLive result
  have keptSlot : ∀ i, tbl.table.Live i →
      (tbl.table.makeEntryHdl i ≠ tbl.table.makeEntryHdl e ↔ i ≠ e) := by
    intro i iLive
    refine not_congr ⟨tbl.table.makeEntryHdl_inj iLive.1 isLive.1, ?_⟩
    rintro rfl
    rfl
  refine ⟨rfl, chain', indexChain', consistent, ?_, ?_, ?_⟩
  · exact tracked.handles.sublist (List.filter_sublist.map Prod.fst)
  · intro kept clntRule member
    obtain ⟨wasHeld, different⟩ := List.mem_filter.mp member
    obtain ⟨i, rfl, iLive, ⟨old, last, indx, holds⟩, dst, src⟩ :=
      tracked.held kept clntRule wasHeld
    obtain ⟨dstSame, srcSame⟩ :=
      buckets_same verAtLeast40 pdns same clntRule
    rw [dstSame, srcSame]
    have nowLive := (liveIff i).mpr
      ⟨iLive, (keptSlot i iLive).mp (of_decide_eq_true different)⟩
    exact ⟨i, (same.makeEntryHdl i).symm, nowLive,
      ⟨old, last, indx, holds.trans (moved i nowLive)⟩,
      fun found => dstStays _ i nowLive (dst found),
      fun found => srcStays _ i nowLive (src found)⟩
  · intro i iLive
    obtain ⟨wasLive, different⟩ := (liveIff i).mp iLive
    obtain ⟨held, inLive, atI⟩ := List.mem_map.mp (tracked.known i wasLive)
    rw [same.makeEntryHdl, ← atI]
    refine List.mem_map_of_mem (List.mem_filter.mpr ⟨inLive, ?_⟩)
    rw [atI]
    exact decide_eq_true ((keptSlot i wasLive).mpr different)

end Tracked

namespace NatRun

def Tracks (run : NatRun) : Prop :=
  ∀ mem, (run.drv.cache mem = none ∧ run.live mem = []) ∨
    ∃ tbl chain indexChain, run.drv.cache mem = some tbl ∧
      Tracked run.drv.verAtLeast40 run.drv.pdns tbl (run.live mem) chain
        indexChain

namespace Tracks

variable {run : NatRun}

theorem of_start (start : run.Start) : run.Tracks := by
  intro mem
  rw [start.nothing mem]
  rcases start.created mem with absent | ⟨geometry, created⟩
  · exact Or.inl ⟨absent, rfl⟩
  · obtain ⟨consistent, noneLive⟩ :=
      Consistent.create run.drv.pdns mem geometry
    exact Or.inr ⟨_, _, _, created, Tracked.nothing consistent noneLive⟩

variable (tracks : run.Tracks)
include tracks

theorem tracked {mem : MemIn} {tbl : Ip4TableCache}
    (found : run.drv.cache mem = some tbl) :
    ∃ chain indexChain, Tracked run.drv.verAtLeast40 run.drv.pdns tbl
      (run.live mem) chain indexChain := by
  rcases tracks mem with ⟨absent, -⟩ | ⟨tbl', chain, indexChain, cached, held⟩
  · rw [absent] at found
    cases found
  · rw [cached, Option.some.injEq] at found
    exact ⟨chain, indexChain, found ▸ held⟩

theorem replace (mem : MemIn) {tbl : Ip4TableCache} (token : Nat)
    {live : List (Nat × NatIpv4Rule)} {chain indexChain : Nat → List Nat}
    (tracked : Tracked run.drv.verAtLeast40 run.drv.pdns tbl live chain
      indexChain) :
    Tracks ⟨{ run.drv.setCache mem (some tbl) with hashToken := token },
      Function.update run.live mem live⟩ := by
  intro other
  by_cases same : other = mem
  · subst same
    right
    exact ⟨tbl, chain, indexChain, by simp, by simpa using tracked⟩
  · simp only [NatDrv.setCache_cache, Function.update_of_ne same]
    exact tracks other

theorem add (tblHdl : Nat) (clntRule : NatIpv4Rule) (calls : DrvCalls) :
    (run.add tblHdl clntRule calls).Tracks := by
  rcases run.drv.natiAddIpv4Rule_cases tblHdl clntRule calls with
    refused | ⟨tbl, tbl', token, ret, found, valid, result, effect⟩
  · rw [NatRun.add, refused calls.unlock, DrvCalls.unlocked, refused true]
    exact tracks
  · obtain ⟨chain, indexChain, held⟩ := tracks.tracked found
    obtain ⟨chain', indexChain', held'⟩ := held.addRule valid result
    rw [NatRun.add, effect calls.unlock, DrvCalls.unlocked, effect true,
      unlockResult_true]
    cases ret with
    | ok ruleHdl => exact tracks.replace _ _ held'
    | error errno =>
      have replaced := tracks.replace (tblHdlMem tblHdl) token held'
      rwa [Function.update_eq_self] at replaced

theorem del (tblHdl ruleHdl : Nat) {calls : DrvCalls} (dma : calls.dma = true)
    (member : ruleHdl ∈ (run.live (tblHdlMem tblHdl)).map Prod.fst) :
    (run.del tblHdl ruleHdl calls).Tracks := by
  rcases run.drv.natiDelIpv4Rule_cases tblHdl ruleHdl calls with
    refused | ⟨tbl, tbl', ret, found, result, effect⟩
  · rw [NatRun.del, refused calls.unlock, DrvCalls.unlocked, refused true]
    exact tracks
  · obtain ⟨chain, indexChain, held⟩ := tracks.tracked found
    rw [dma] at result
    obtain ⟨rfl, chain', indexChain', held'⟩ := held.delRule member result
    rw [NatRun.del, effect calls.unlock, DrvCalls.unlocked, effect true,
      unlockResult_true]
    exact tracks.replace _ run.drv.hashToken held'

theorem clear (tblHdl : Nat) (calls : DrvCalls) :
    (run.clear tblHdl calls).Tracks := by
  rcases run.drv.natiClearIpv4Tbl_cases tblHdl calls with
    refused | ⟨tbl, found, effect⟩
  · rw [NatRun.clear, refused calls.unlock, DrvCalls.unlocked, refused true]
    exact tracks
  · obtain ⟨chain, indexChain, held⟩ := tracks.tracked found
    obtain ⟨consistent, noneLive⟩ :=
      Consistent.clear run.drv.pdns held.consistent.wired
    rw [NatRun.clear, effect calls.unlock, DrvCalls.unlocked, effect true,
      unlockResult_true]
    exact tracks.replace _ run.drv.hashToken
      (Tracked.nothing consistent noneLive)

theorem step {run' : NatRun} (taken : run.Step run') : run'.Tracks := by
  cases taken with
  | add tblHdl clntRule calls => exact tracks.add tblHdl clntRule calls
  | del tblHdl ruleHdl calls dma held =>
    exact tracks.del tblHdl ruleHdl dma held
  | clear tblHdl calls => exact tracks.clear tblHdl calls

end Tracks

theorem tracks_of_reachable {run : NatRun}
    (reached : Reachable Start Step run) : run.Tracks :=
  reached.invariant (fun _ start => Tracks.of_start start)
    fun _ _ tracks taken => tracks.step taken

end NatRun

/-! ### A run with collisions -/

def TableGeometry.smallest : TableGeometry where
  tableEntries := 2
  expnTableEntries := 2
  power := ⟨0, rfl⟩
  expnPos := by decide
  expnLe := by decide
  totLe := by decide

def NatIpv4Rule.sample (publicPort : BitVec 16) : NatIpv4Rule where
  targetIp := 0x08080808
  privateIp := 0xC0A80102
  targetPort := 443
  privatePort := 1000
  publicPort := publicPort
  protocol := 6
  pdnIndex := 0
  redirect := 0
  enable := 1
  timeStamp := 0
  ucActivationIndex := 0
  s := false
  ucp := false
  dstOnly := false
  srcOnly := false

def NatDrv.sample (cache : MemIn → Option Ip4TableCache) : NatDrv where
  cache := cache
  pdns := fun _ => 0x01020304
  hashToken := 1
  verAtLeast40 := true
  activeNatCache := some .ddr

def DrvCalls.allOk : DrvCalls := ⟨true, true, true⟩

namespace NatRun

def sampleStart : NatRun where
  drv := NatDrv.sample fun mem => some (Ip4TableCache.create mem .smallest)
  live := fun _ => []

theorem sampleStart_start : sampleStart.Start where
  created := fun _ => Or.inr ⟨.smallest, rfl⟩
  nothing := fun _ => rfl

def sampleRun : NatRun :=
  (((sampleStart.add 1 (.sample 1) .allOk).add 1 (.sample 2) .allOk).add 1
    (.sample 3) .allOk).del 1 2 .allOk

theorem sampleRun_reachable : Reachable Start Step sampleRun :=
  .next (.next (.next (.next (.start sampleStart_start)
    (.add 1 _ .allOk rfl)) (.add 1 _ .allOk rfl)) (.add 1 _ .allOk rfl))
    (.del 1 2 .allOk rfl (by decide +kernel))

end NatRun

/-! ### The tables of a run -/

def NatDrv.WellFormed (drv : NatDrv) : Prop :=
  ∀ mem tbl, drv.cache mem = some tbl → tbl.WellFormed drv.pdns

/-- Whatever collides and in whatever order rules come and go, the tables stay
well formed. -/
theorem NatRun.wellFormed_of_reachable {run : NatRun}
    (reached : Reachable Start Step run) : run.drv.WellFormed := by
  intro mem tbl found
  obtain ⟨chain, indexChain, tracked⟩ :=
    (NatRun.tracks_of_reachable reached).tracked found
  exact tracked.consistent.wellFormed

theorem NatRun.sampleRun_wellFormed : NatRun.sampleRun.drv.WellFormed :=
  NatRun.wellFormed_of_reachable NatRun.sampleRun_reachable

/-! ### The lookups of the hardware -/

structure NatRule.Carries (rule : NatRule) (clntRule : NatIpv4Rule) : Prop where
  enable : rule.enable = true
  valid : rule.protocol ≠ natInvalidProtocol
  protocol : rule.protocol = clntRule.protocol
  privateIp : rule.privateIp = clntRule.privateIp
  privatePort : rule.privatePort = clntRule.privatePort
  publicPort : rule.publicPort = clntRule.publicPort
  targetIp : rule.targetIp = clntRule.targetIp
  targetPort : rule.targetPort = clntRule.targetPort

theorem NatRule.Holds.carries {pdns : Pdns} {clntRule : NatIpv4Rule}
    {rule : NatRule} (holds : NatRule.Holds pdns clntRule rule)
    (valid : rule.protocol ≠ natInvalidProtocol) : rule.Carries clntRule := by
  obtain ⟨old, last, indx, next, prev, indx', rfl⟩ := holds
  exact ⟨rfl, valid, rfl, rfl, rfl, rfl, rfl, rfl⟩

/-- The lookups agree with the rules `live`: both find each rule that is not
one-way, and neither finds anything else. -/
structure Ip4TableCache.LooksUp (verAtLeast40 : Bool) (pdns : Pdns)
    (tbl : Ip4TableCache) (live : List (Nat × NatIpv4Rule)) : Prop where
  handles : (live.map Prod.fst).Nodup
  found : ∀ ruleHdl clntRule, (ruleHdl, clntRule) ∈ live →
    clntRule.srcOnly = false → clntRule.dstOnly = false →
    ∃ e, ruleHdl = tbl.table.makeEntryHdl e ∧
      (∃ l, Follows (tbl.table.nextIndex (entryInterface pdns)) 0
        (tbl.dstBucket verAtLeast40 pdns clntRule) l ∧ e ∈ l) ∧
      (tbl.table.entries e).Carries clntRule ∧
      ∃ l j, Follows (tbl.indexTable.nextIndex indexEntryInterface) 0
        (tbl.srcBucket clntRule) l ∧ j ∈ l ∧
          (tbl.indexTable.entries j).tblEntry = e
  owned : ∀ b l e, 0 < b → b < tbl.table.tableEntries →
    Follows (tbl.table.nextIndex (entryInterface pdns)) 0 b l → e ∈ l →
    (tbl.table.entries e).enable = true →
    (tbl.table.entries e).protocol ≠ natInvalidProtocol →
    ∃ clntRule, (tbl.table.makeEntryHdl e, clntRule) ∈ live ∧
      (tbl.table.entries e).Carries clntRule
  indexOwned : ∀ b l j, 0 < b → b < tbl.indexTable.tableEntries →
    Follows (tbl.indexTable.nextIndex indexEntryInterface) 0 b l → j ∈ l →
    (tbl.indexTable.entries j).tblEntry ≠ 0 →
    ∃ clntRule,
      (tbl.table.makeEntryHdl (tbl.indexTable.entries j).tblEntry, clntRule) ∈
        live ∧
      (tbl.table.entries (tbl.indexTable.entries j).tblEntry).Carries clntRule

namespace Tracked

variable {verAtLeast40 : Bool} {pdns : Pdns} {tbl : Ip4TableCache}
  {live : List (Nat × NatIpv4Rule)} {chain indexChain : Nat → List Nat}

theorem owner (tracked : Tracked verAtLeast40 pdns tbl live chain indexChain)
    {e : Nat} (isLive : tbl.table.Live e) :
    ∃ clntRule, (tbl.table.makeEntryHdl e, clntRule) ∈ live ∧
      (tbl.table.entries e).Carries clntRule := by
  obtain ⟨⟨ruleHdl, clntRule⟩, member, atE⟩ :=
    List.mem_map.mp (tracked.known e isLive)
  obtain ⟨i, rfl, iLive, holds, -, -⟩ := tracked.held ruleHdl clntRule member
  have same := tbl.table.makeEntryHdl_inj iLive.1 isLive.1 atE
  subst same
  exact ⟨clntRule, member, holds.carries isLive.2.2⟩

theorem looksUp (tracked : Tracked verAtLeast40 pdns tbl live chain indexChain) :
    tbl.LooksUp verAtLeast40 pdns live where
  handles := tracked.handles
  found := by
    intro ruleHdl clntRule member notSrcOnly notDstOnly
    obtain ⟨e, rfl, isLive, holds, dst, src⟩ :=
      tracked.held ruleHdl clntRule member
    obtain ⟨indexWalk, visits, met⟩ :=
      tracked.consistent.indexes.reaches (src notDstOnly)
    exact ⟨e, rfl,
      tracked.consistent.rules.shaped.reaches (dst notSrcOnly),
      holds.carries isLive.2.2,
      indexWalk, _, visits, met, (tracked.consistent.forward e isLive).2⟩
  owned := by
    intro b l e positive inside walk met enabled valid
    have shaped := tracked.consistent.rules.shaped
    have member := shaped.mem_of_visited positive inside enabled walk met
    have busy := shaped.buckets.occupied_of_mem member
    exact tracked.owner ⟨busy.1, enabled, valid⟩
  indexOwned := by
    intro b l j positive inside walk met nonzero
    have shaped := tracked.consistent.indexes
    have member := shaped.mem_of_visited positive inside
      (decide_eq_true nonzero) walk met
    have busy := shaped.buckets.occupied_of_mem member
    exact tracked.owner (tracked.consistent.backward j busy).1

end Tracked

def NatRun.LooksUp (run : NatRun) : Prop :=
  ∀ mem tbl, run.drv.cache mem = some tbl →
    tbl.LooksUp run.drv.verAtLeast40 run.drv.pdns (run.live mem)

/-- The hardware finds the live rules in both directions, and only them. -/
theorem NatRun.looksUp_of_reachable {run : NatRun}
    (reached : Reachable Start Step run) : run.LooksUp := by
  intro mem tbl found
  obtain ⟨chain, indexChain, tracked⟩ :=
    (NatRun.tracks_of_reachable reached).tracked found
  exact tracked.looksUp

theorem NatRun.sampleRun_looksUp : NatRun.sampleRun.LooksUp :=
  NatRun.looksUp_of_reachable NatRun.sampleRun_reachable

end VendorModules.IpaNat
