import VendorModules.IpaNat.Consistent

namespace VendorModules.IpaNat

open VendorModules.Lib

/-! What a NAT table keeps whatever becomes of the calls it makes: the shape of
its rule table, and the clients' rules its records carry. The index table may be
left inconsistent by a deletion whose commands are not carried out. -/

/-! ### The fixed parts -/

namespace IpaTable

variable {E U : Type} {ei : EntryInterface E U} {table table' : IpaTable E}

theorem addEntry_same {userData : U} {b e : Nat} {cmd cmd' : DmaCmd}
    (added : table.addEntry ei userData b cmd = .ok (table', e, cmd')) :
    SameTable table table' := by
  rcases addEntry_cases added with ⟨-, -, rfl, -⟩ | ⟨-, last, -, -, rfl, -⟩
  · exact ⟨rfl, rfl, rfl, rfl⟩
  · exact ⟨rfl, rfl, rfl, rfl⟩

theorem deleteEntry_same (iterator : TableIterator) (isPrevEmpty : Bool) :
    SameTable table (table.deleteEntry ei iterator isPrevEmpty) := by
  simp only [deleteEntry]
  refine SameTable.trans ?_ (eraseEntry_same _ _)
  split
  · exact ⟨rfl, rfl, rfl, rfl⟩
  · split
    · exact ⟨rfl, rfl, rfl, rfl⟩
    · exact SameTable.refl table

end IpaTable

namespace Ip4TableCache

variable {pdns : Pdns} {tbl tbl' : Ip4TableCache}

structure Same (tbl tbl' : Ip4TableCache) : Prop where
  rules : IpaTable.SameTable tbl.table tbl'.table
  indexes : IpaTable.SameTable tbl.indexTable tbl'.indexTable

theorem Same.refl (tbl : Ip4TableCache) : tbl.Same tbl :=
  ⟨IpaTable.SameTable.refl _, IpaTable.SameTable.refl _⟩

theorem Same.trans {tbl'' : Ip4TableCache} (first : tbl.Same tbl')
    (second : tbl'.Same tbl'') : tbl.Same tbl'' :=
  ⟨first.rules.trans second.rules, first.indexes.trans second.indexes⟩

theorem addRule_same {drv : NatDrv} {clntRule : NatIpv4Rule} {dma : Bool}
    {token : Nat} {ret : Except Errno Nat}
    (result : tbl.addRule drv clntRule dma = (tbl', token, ret)) :
    tbl.Same tbl' := by
  simp only [addRule] at result
  split at result
  · obtain ⟨rfl, -⟩ := Prod.mk.injEq .. ▸ result
    exact Same.refl tbl
  · next table e cmd ruleAdd =>
    have rules := IpaTable.addEntry_same ruleAdd
    split at result
    · obtain ⟨rfl, -⟩ := Prod.mk.injEq .. ▸ result
      exact ⟨rules.trans (IpaTable.eraseEntry_same _ _),
        IpaTable.SameTable.refl _⟩
    · next indexTable j cmd indexAdd =>
      have indexes := IpaTable.addEntry_same indexAdd
      have erased : tbl.Same (eraseBoth { table, indexTable } drv.pdns e j) :=
        ⟨rules.trans (IpaTable.eraseEntry_same _ _),
          indexes.trans (IpaTable.eraseEntry_same _ _)⟩
      split at result
      · obtain ⟨rfl, -⟩ := Prod.mk.injEq .. ▸ result
        exact erased
      · next rule found =>
        split at result
        · obtain ⟨rfl, -⟩ := Prod.mk.injEq .. ▸ result
          have completed := table.setEntry_same e (completeRule rule clntRule j)
          obtain ⟨posted, indexPosted⟩ := applyDma_same
            { table := table.setEntry e (completeRule rule clntRule j)
              indexTable } cmd
          exact ⟨(rules.trans completed).trans posted,
            indexes.trans indexPosted⟩
        · obtain ⟨rfl, -⟩ := Prod.mk.injEq .. ▸ result
          have completed := table.setEntry_same e (completeRule rule clntRule j)
          exact ⟨(rules.trans completed).trans (IpaTable.eraseEntry_same _ _),
            erased.indexes⟩

theorem finishDelete_same {iterator indexIterator : TableIterator} {cmd : DmaCmd}
    {dma : Bool} {ret : Except Errno Unit}
    (result : finishDelete pdns tbl iterator indexIterator cmd dma =
      (tbl', ret)) : tbl.Same tbl' := by
  simp only [finishDelete] at result
  split at result
  · obtain ⟨rfl, -⟩ := Prod.mk.injEq .. ▸ result
    exact Same.refl tbl
  · obtain ⟨rfl, -⟩ := Prod.mk.injEq .. ▸ result
    obtain ⟨posted, indexPosted⟩ := applyDma_same tbl
      (tbl.table.createDeleteCommand (entryInterface pdns) cmd iterator)
    refine ⟨?_, indexPosted.trans ((IpaTable.deleteEntry_same _ _).trans
      (resetIndexMeta_same _ _))⟩
    split
    · exact posted
    · exact posted.trans (IpaTable.deleteEntry_same _ _)

theorem delRule_same {ruleHdl : Nat} {dma : Bool} {ret : Except Errno Unit}
    (result : tbl.delRule pdns ruleHdl dma = (tbl', ret)) : tbl.Same tbl' := by
  have copied : ∀ iterator cmd,
      tbl.Same (tbl.copySecondIndexEntryToHead iterator cmd).1 :=
    fun _ _ => ⟨⟨rfl, rfl, rfl, rfl⟩, ⟨rfl, rfl, rfl, rfl⟩⟩
  rcases delRule_cases result with ⟨-, -, rfl⟩ | ⟨-, iterator, -, rfl⟩ |
    ⟨e, iterator, tableIterator, -, -, -, ⟨-, finish⟩ | ⟨-, second, -, finish⟩⟩
  · exact Same.refl _
  · exact copied _ _
  · exact finishDelete_same finish
  · exact (copied _ _).trans (finishDelete_same finish)

end Ip4TableCache

/-! ### Carried rules -/

/-- The record carries the client's rule. Additions clear the redirection and the
time stamp, and cut the activation index to thirteen bits. -/
structure NatRule.CarriesRule (rule : NatRule) (clntRule : NatIpv4Rule) :
    Prop where
  privateIp : rule.privateIp = clntRule.privateIp
  privatePort : rule.privatePort = clntRule.privatePort
  publicPort : rule.publicPort = clntRule.publicPort
  targetIp : rule.targetIp = clntRule.targetIp
  targetPort : rule.targetPort = clntRule.targetPort
  protocol : rule.protocol = clntRule.protocol
  pdnIndex : rule.pdnIndex = clntRule.pdnIndex.setWidth 4
  ucActivationIndex : rule.ucActivationIndex =
    clntRule.ucActivationIndex.setWidth 13
  s : rule.s = clntRule.s
  ucp : rule.ucp = clntRule.ucp
  dstOnly : rule.dstOnly = clntRule.dstOnly
  srcOnly : rule.srcOnly = clntRule.srcOnly
  redirect : rule.redirect = false
  timeStamp : rule.timeStamp = 0

theorem NatRule.CarriesRule.moved {rule rule' : NatRule} {clntRule : NatIpv4Rule}
    (carries : rule.CarriesRule clntRule) (moved : rule.Moved rule') :
    rule'.CarriesRule clntRule := by
  obtain ⟨next, prev, indx, rfl⟩ := moved
  exact ⟨carries.privateIp, carries.privatePort, carries.publicPort,
    carries.targetIp, carries.targetPort, carries.protocol, carries.pdnIndex,
    carries.ucActivationIndex, carries.s, carries.ucp, carries.dstOnly,
    carries.srcOnly, carries.redirect, carries.timeStamp⟩

/-- A new record of `added` carries the client's rule `clntRule`. -/
def NatIpv4Rule.BringsIn (added clntRule : NatIpv4Rule) : Prop :=
  ∀ pdns old last indx,
    (insertedRule pdns old added last indx).CarriesRule clntRule

/-! ### Tables that carry rules of a kind -/

/-- The table of the memory `mem`, whose rules are all among `own`. -/
structure Ip4TableCache.Holding (own : NatIpv4Rule → Prop) (mem : MemIn)
    (tbl : Ip4TableCache) : Prop where
  wired : tbl.Wired
  nmi : tbl.table.nmi = mem
  rules : ∃ chain, ∀ pdns, RuleTable pdns tbl.table chain
  carried : ∀ i, tbl.table.Live i →
    ∃ clntRule, own clntRule ∧ (tbl.table.entries i).CarriesRule clntRule

/-- The rule is new in the record `e`, which was free; the other rules are where
they were. -/
structure Ip4TableCache.Gained (tbl tbl' : Ip4TableCache)
    (clntRule : NatIpv4Rule) (e : Nat) : Prop where
  inside : e < tbl.table.totTblEnts
  fresh : ¬tbl.table.Live e
  live : ∀ i, tbl'.table.Live i ↔ tbl.table.Live i ∨ i = e
  carries : (tbl'.table.entries e).CarriesRule clntRule
  others : ∀ i, i ≠ e → (tbl.table.entries i).Relinked (tbl'.table.entries i)

namespace Ip4TableCache.Holding

variable {own own' : NatIpv4Rule → Prop} {mem : MemIn}
  {tbl tbl' : Ip4TableCache}

theorem mono (holding : tbl.Holding own mem) (more : ∀ rule, own rule → own' rule) :
    tbl.Holding own' mem where
  wired := holding.wired
  nmi := holding.nmi
  rules := holding.rules
  carried := by
    intro i live
    obtain ⟨clntRule, owned, carries⟩ := holding.carried i live
    exact ⟨clntRule, more clntRule owned, carries⟩

theorem create (own : NatIpv4Rule → Prop) (mem : MemIn)
    (geometry : TableGeometry) :
    (Ip4TableCache.create mem geometry).Holding own mem := by
  obtain ⟨consistent, noneLive⟩ := Consistent.create (fun _ => 0) mem geometry
  exact ⟨consistent.wired, rfl, ⟨_, fun _ => consistent.rules.anyPdns⟩,
    fun i live => absurd live (noneLive i)⟩

variable (holding : tbl.Holding own mem)
include holding

theorem clear (pdns : Pdns) :
    (tbl.clear pdns).Holding own' mem ∧ ∀ i, ¬(tbl.clear pdns).table.Live i := by
  obtain ⟨consistent, noneLive⟩ := Consistent.clear pdns holding.wired
  exact ⟨⟨consistent.wired, holding.nmi, ⟨_, fun _ => consistent.rules.anyPdns⟩,
    fun i live => absurd live (noneLive i)⟩, noneLive⟩

theorem addRule {drv : NatDrv} {added clntRule : NatIpv4Rule} {dma : Bool}
    {token : Nat} {ret : Except Errno Nat}
    (valid : added.protocol ≠ natInvalidProtocol)
    (brings : added.BringsIn clntRule) (owned : own clntRule)
    (result : tbl.addRule drv added dma = (tbl', token, ret)) :
    tbl'.Holding own mem ∧
    (((∃ errno, ret = .error errno) ∧
      (∀ i, tbl'.table.Live i ↔ tbl.table.Live i) ∧
      ∀ i, tbl.table.Live i → tbl'.table.entries i = tbl.table.entries i) ∨
    ∃ e, ret = .ok (tbl.table.makeEntryHdl e) ∧ tbl.Gained tbl' clntRule e) := by
  have same := Ip4TableCache.addRule_same result
  have wired := holding.wired.congr same.rules same.indexes
  have nmi := same.rules.nmi.trans holding.nmi
  obtain ⟨chain, rules⟩ := holding.rules
  rcases Ip4TableCache.addRule_spec holding.wired (rules drv.pdns).shaped result
    with ⟨failed, kept, -⟩ | ⟨-, e, indx, rfl, claimable, ruleAdded, -⟩
  · obtain ⟨rules', entries, liveIff⟩ := (rules drv.pdns).kept kept
    refine ⟨⟨wired, nmi, ⟨chain, fun _ => rules'.anyPdns⟩, ?_⟩,
      Or.inl ⟨failed, liveIff, entries⟩⟩
    intro i live
    have wasLive := (liveIff i).mp live
    rw [entries i wasLive]
    exact holding.carried i wasLive
  · obtain ⟨rules', entryNew, relinked, -, liveIff⟩ :=
      (rules drv.pdns).added (tbl.entryBucket_lt drv added) valid claimable
        ruleAdded
    have carries : (tbl'.table.entries e).CarriesRule clntRule := by
      rw [entryNew]
      exact brings _ _ _ _
    have notLive : ¬tbl.table.Live e := by
      rintro ⟨-, enabled, -⟩
      have free : (tbl.table.entries e).enable = false := claimable.free
      rw [enabled] at free
      cases free
    refine ⟨⟨wired, nmi, ⟨_, fun _ => rules'.anyPdns⟩, ?_⟩,
      Or.inr ⟨e, rfl, claimable.inside, notLive, liveIff, carries, relinked⟩⟩
    intro i live
    by_cases atE : i = e
    · subst atE
      exact ⟨clntRule, owned, carries⟩
    · obtain ⟨rule, ruleOwned, ruleCarries⟩ :=
        holding.carried i (((liveIff i).mp live).resolve_right atE)
      exact ⟨rule, ruleOwned, ruleCarries.moved (relinked i atE).moved⟩

theorem delRule {pdns : Pdns} {ruleHdl : Nat} {dma : Bool}
    {ret : Except Errno Unit}
    (result : tbl.delRule pdns ruleHdl dma = (tbl', ret)) :
    tbl'.Holding own mem := by
  have same := Ip4TableCache.delRule_same result
  have wired := holding.wired.congr same.rules same.indexes
  have nmi := same.rules.nmi.trans holding.nmi
  obtain ⟨chain, rules⟩ := holding.rules
  obtain ⟨mid, midCase, outcome⟩ :=
    Ip4TableCache.delRule_rules holding.wired (rules pdns) result
  have midRules : RuleTable pdns mid chain := by
    rcases midCase with rfl | ⟨k, x, rfl⟩
    · exact rules pdns
    · exact (rules pdns).relabeled k x
  have midEntries : ∀ i, (tbl.table.entries i).Moved (mid.entries i) := by
    intro i
    rcases midCase with rfl | ⟨k, x, rfl⟩
    · exact NatRule.Moved.refl _
    · rw [IpaTable.setEntry_entries]
      split
      · next atK =>
        rw [atK]
        exact ⟨_, _, x, rfl⟩
      · exact NatRule.Moved.refl _
  have midLive : ∀ i, mid.Live i → tbl.table.Live i := by
    intro i live
    obtain ⟨next, prev, indx, entry⟩ := midEntries i
    have total : mid.totTblEnts = tbl.table.totTblEnts := by
      rcases midCase with rfl | ⟨k, x, rfl⟩
      · rfl
      · exact (tbl.table.setEntry_same _ _).totTblEnts
    simpa only [IpaTable.Live, entry, total] using live
  rcases outcome with ⟨-, unchanged⟩ | ⟨-, e, chain', -, -, deleted⟩
  · refine ⟨wired, nmi, ⟨chain, fun _ => unchanged ▸ midRules.anyPdns⟩, ?_⟩
    intro i live
    rw [unchanged] at live ⊢
    obtain ⟨rule, owned, carries⟩ := holding.carried i (midLive i live)
    exact ⟨rule, owned, carries.moved (midEntries i)⟩
  · refine ⟨wired, nmi, ⟨chain', fun _ => deleted.rules.anyPdns⟩, ?_⟩
    intro i live
    have wasLive := midLive i ((deleted.live i).mp live).1
    obtain ⟨rule, owned, carries⟩ := holding.carried i wasLive
    exact ⟨rule, owned,
      carries.moved ((midEntries i).trans (deleted.entries i live).moved)⟩

end Ip4TableCache.Holding

end VendorModules.IpaNat
