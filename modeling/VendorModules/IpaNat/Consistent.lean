import VendorModules.IpaNat.DelIndex
import Mathlib.Data.Set.Function

namespace VendorModules.IpaNat

open VendorModules.Lib

/-- The invariant of a NAT table: both parts are well shaped, and the live rules
and the index records point to each other. -/
structure Consistent (pdns : Pdns) (tbl : Ip4TableCache)
    (chain indexChain : Nat → List Nat) : Prop where
  wired : tbl.Wired
  rules : RuleTable pdns tbl.table chain
  indexes : tbl.indexTable.Shaped indexEntryInterface indexChain
  forward : ∀ i, tbl.table.Live i →
    tbl.indexTable.Busy indexEntryInterface (tbl.table.entries i).indxTblEntry ∧
      (tbl.indexTable.entries (tbl.table.entries i).indxTblEntry).tblEntry = i
  backward : ∀ j, tbl.indexTable.Busy indexEntryInterface j →
    tbl.table.Live (tbl.indexTable.entries j).tblEntry ∧
      (tbl.table.entries (tbl.indexTable.entries j).tblEntry).indxTblEntry = j

/-- `rule'` is `rule` but for what the driver keeps in it for itself. -/
def NatRule.Moved (rule rule' : NatRule) : Prop :=
  ∃ next prev indx,
    rule' = { rule with
      nextIndex := next
      prevIndex := prev
      indxTblEntry := indx }

theorem NatRule.Relinked.moved {rule rule' : NatRule}
    (relinked : rule.Relinked rule') : rule.Moved rule' := by
  obtain ⟨next, prev, rfl⟩ := relinked
  exact ⟨next, prev, rule.indxTblEntry, rfl⟩

theorem NatRule.Moved.refl (rule : NatRule) : rule.Moved rule :=
  (NatRule.Relinked.refl rule).moved

theorem NatRule.Moved.trans {rule rule' rule'' : NatRule}
    (first : rule.Moved rule') (second : rule'.Moved rule'') :
    rule.Moved rule'' := by
  obtain ⟨next, prev, indx, rfl⟩ := first
  obtain ⟨next', prev', indx', rfl⟩ := second
  exact ⟨next', prev', indx', rfl⟩

namespace Consistent

variable {pdns : Pdns} {tbl tbl' : Ip4TableCache}
  {chain indexChain : Nat → List Nat}

private theorem of_blank {tbl : Ip4TableCache} (pdns : Pdns) (wired : tbl.Wired)
    (rules : ∀ i, i < tbl.table.totTblEnts →
      tbl.table.entries i = NatRule.blank)
    (indexes : ∀ i, i < tbl.indexTable.totTblEnts →
      tbl.indexTable.entries i = IndxTblRule.blank)
    (tblCnt : tbl.table.curTblCnt = 0) (expnCnt : tbl.table.curExpnTblCnt = 0)
    (indexTblCnt : tbl.indexTable.curTblCnt = 0)
    (indexExpnCnt : tbl.indexTable.curExpnTblCnt = 0) :
    Consistent pdns tbl (fun _ => []) (fun _ => []) ∧
      ∀ i, ¬tbl.table.Live i := by
  have noneLive : ∀ i, ¬tbl.table.Live i := fun i live =>
    RuleTable.not_live_blank (rules i live.1) live
  have vacant : ∀ i, i < tbl.indexTable.totTblEnts →
      tbl.indexTable.isFilled indexEntryInterface i = false := by
    intro i inside
    rw [IpaTable.isFilled, indexes i inside]
    rfl
  refine ⟨⟨wired, RuleTable.blank pdns rules tblCnt expnCnt,
    IpaTable.Shaped.blank vacant ?_ ?_ indexTblCnt indexExpnCnt, ?_, ?_⟩, noneLive⟩
  · intro i inside
    rw [IpaTable.nextIndex, indexes i inside]
    rfl
  · intro i inside
    simp [IpaTable.prevIndex, indexEntryInterface, inside]
  · exact fun i live => absurd live (noneLive i)
  · rintro j ⟨inside, filled⟩
    rw [vacant j inside] at filled
    cases filled

theorem create (pdns : Pdns) (nmi : MemIn) (geometry : TableGeometry) :
    Consistent pdns (Ip4TableCache.create nmi geometry) (fun _ => [])
      (fun _ => []) ∧
      ∀ i, ¬(Ip4TableCache.create nmi geometry).table.Live i :=
  of_blank pdns (Ip4TableCache.Wired.create nmi geometry) (fun _ _ => rfl)
    (fun _ _ => rfl) rfl rfl rfl rfl

theorem clear (pdns : Pdns) {tbl : Ip4TableCache} (wired : tbl.Wired) :
    Consistent pdns (tbl.clear pdns) (fun _ => []) (fun _ => []) ∧
      ∀ i, ¬(tbl.clear pdns).table.Live i := by
  have wired' : (tbl.clear pdns).Wired :=
    wired.congr ⟨rfl, rfl, rfl, rfl⟩ ⟨rfl, rfl, rfl, rfl⟩
  apply of_blank pdns wired'
  · intro i inside
    exact if_pos inside
  · intro i inside
    exact if_pos inside
  all_goals rfl

/-- Adding a rule either changes no rule and no cross reference, or puts the
rule at the end of its two buckets. -/
theorem addRule {drv : NatDrv} {clntRule : NatIpv4Rule} {dma : Bool}
    {token : Nat} {ret : Except Errno Nat}
    (consistent : Consistent drv.pdns tbl chain indexChain)
    (valid : clntRule.protocol ≠ natInvalidProtocol)
    (result : tbl.addRule drv clntRule dma = (tbl', token, ret)) :
    ((∃ errno, ret = .error errno) ∧
      Consistent drv.pdns tbl' chain indexChain ∧
      IpaTable.SameTable tbl.table tbl'.table ∧
      (∀ i, tbl'.table.Live i ↔ tbl.table.Live i) ∧
      ∀ i, tbl.table.Live i → tbl'.table.entries i = tbl.table.entries i) ∨
    (dma = true ∧ ∃ e b c,
      b = tbl.entryBucket drv clntRule ∧
      c = tbl.indexBucket (drv.hashToken + clntRule.srcOnly.toNat) clntRule ∧
      ret = .ok (tbl.table.makeEntryHdl e) ∧ e < tbl.table.totTblEnts ∧
      ¬tbl.table.Live e ∧
      Consistent drv.pdns tbl' (Function.update chain b (chain b ++ [e]))
        (Function.update indexChain c
          (indexChain c ++ [(tbl'.table.entries e).indxTblEntry])) ∧
      IpaTable.SameTable tbl.table tbl'.table ∧
      (∀ i, tbl'.table.Live i ↔ tbl.table.Live i ∨ i = e) ∧
      (∃ last, tbl'.table.entries e =
        insertedRule drv.pdns (tbl.table.entries e) clntRule last
          (tbl'.table.entries e).indxTblEntry) ∧
      ∀ i, i ≠ e → (tbl.table.entries i).Relinked (tbl'.table.entries i) ∧
        (tbl'.table.entries i).indxTblEntry =
          (tbl.table.entries i).indxTblEntry) := by
  rcases Ip4TableCache.addRule_spec consistent.wired consistent.rules.shaped
    result with ⟨failed, kept, indexKept⟩ |
      ⟨posted, e, j, rfl, claimable, added, indexAdded⟩
  · have indexKept := indexKept indexChain consistent.indexes
    obtain ⟨rules, entries, liveIff⟩ := consistent.rules.kept kept
    have busyEq : ∀ i, tbl.indexTable.Busy indexEntryInterface i →
        tbl'.indexTable.entries i = tbl.indexTable.entries i := by
      rintro i ⟨-, filled⟩
      rcases indexKept.entries i with equal | ⟨free, -⟩
      · exact equal
      · rw [filled] at free
        cases free
    have busyIff : ∀ i, tbl'.indexTable.Busy indexEntryInterface i ↔
        tbl.indexTable.Busy indexEntryInterface i := by
      intro i
      rw [IpaTable.Busy, IpaTable.Busy, indexKept.same.totTblEnts,
        IpaTable.isFilled, IpaTable.isFilled]
      refine and_congr_right fun _ => ?_
      rcases indexKept.entries i with equal | ⟨free, blank⟩
      · rw [equal]
      · rw [IpaTable.isFilled] at free
        rw [blank, free]
        exact iff_of_false Bool.false_ne_true Bool.false_ne_true
    refine Or.inl ⟨failed, ⟨consistent.wired.congr kept.same indexKept.same,
      rules, indexKept.shaped indexEntryInterface_lawful consistent.indexes,
      ?_, ?_⟩, kept.same, liveIff, entries⟩
    · intro i live
      have wasLive := (liveIff i).mp live
      obtain ⟨busy, back⟩ := consistent.forward i wasLive
      rw [entries i wasLive, busyEq _ busy, busyIff]
      exact ⟨busy, back⟩
    · intro j busy
      have wasBusy := (busyIff j).mp busy
      obtain ⟨live, back⟩ := consistent.backward j wasBusy
      rw [busyEq j wasBusy, liveIff, entries _ live]
      exact ⟨live, back⟩
  · obtain ⟨c, rfl, indexClaimable, indexAdded⟩ :=
      indexAdded indexChain consistent.indexes
    have bucketLt := tbl.entryBucket_lt drv clntRule
    have indexBucketLt := tbl.indexBucket_lt
      (drv.hashToken + clntRule.srcOnly.toNat) clntRule
    rw [← consistent.wired.tableEntries] at indexBucketLt
    obtain ⟨rules, entryNew, relinked, indxOld, liveIff⟩ :=
      consistent.rules.added bucketLt valid claimable added
    have indexAppended := indexAdded.appended consistent.indexes
      indexClaimable.inside indexClaimable.free claimable.nonzero
    have indexes := consistent.indexes.claim indexBucketLt indexClaimable
      indexAppended
    have indx : (tbl'.table.entries e).indxTblEntry = j := by
      rw [entryNew]
      rfl
    have notLive : ¬tbl.table.Live e := by
      rintro ⟨-, enabled, -⟩
      have free := claimable.free
      rw [show tbl.table.isFilled (entryInterface drv.pdns) e =
        (tbl.table.entries e).enable from rfl, enabled] at free
      cases free
    have tblEntryNew : (tbl'.indexTable.entries j).tblEntry = e := by
      rw [indexAdded.entries, if_pos rfl]
    have tblEntryOld : ∀ i, i ≠ j → (tbl'.indexTable.entries i).tblEntry =
        (tbl.indexTable.entries i).tblEntry := by
      intro i different
      rw [indexAdded.entries, if_neg different]
      split <;> rfl
    have busyIff : ∀ i, tbl'.indexTable.Busy indexEntryInterface i ↔
        tbl.indexTable.Busy indexEntryInterface i ∨ i = j := by
      intro i
      rw [IpaTable.Busy, indexAdded.same.totTblEnts, indexAppended.filled]
      by_cases atJ : i = j
      · simp [atJ, indexClaimable.inside]
      · simp [atJ, IpaTable.Busy]
    have freeJ : ¬tbl.indexTable.Busy indexEntryInterface j := by
      rintro ⟨-, filled⟩
      rw [indexClaimable.free] at filled
      cases filled
    refine Or.inr ⟨posted, e, _, _, rfl, rfl, rfl, claimable.inside, notLive,
      ⟨consistent.wired.congr added.same indexAdded.same, rules,
        by rw [indx]; exact indexes, ?_, ?_⟩, added.same, liveIff,
      ⟨_, by rw [indx]; exact entryNew⟩, fun i different =>
        ⟨relinked i different, indxOld i different⟩⟩
    · intro i live
      by_cases atE : i = e
      · subst atE
        rw [indx, tblEntryNew, busyIff]
        exact ⟨Or.inr rfl, rfl⟩
      · obtain ⟨busy, back⟩ :=
          consistent.forward i (((liveIff i).mp live).resolve_right atE)
        have notJ : (tbl.table.entries i).indxTblEntry ≠ j := by
          intro same
          rw [same] at busy
          exact freeJ busy
        rw [indxOld i atE, tblEntryOld _ notJ, busyIff]
        exact ⟨Or.inl busy, back⟩
    · intro k busy
      by_cases atJ : k = j
      · subst atJ
        rw [tblEntryNew, indx, liveIff]
        exact ⟨Or.inr rfl, rfl⟩
      · obtain ⟨live, back⟩ :=
          consistent.backward k (((busyIff k).mp busy).resolve_right atJ)
        have notE : (tbl.indexTable.entries k).tblEntry ≠ e := by
          intro same
          rw [same] at live
          exact notLive live
        rw [tblEntryOld k atJ, indxOld _ notE, liveIff]
        exact ⟨Or.inl live, back⟩

private theorem of_deleted {mid : IpaTable NatRule}
    {chain' indexChain' : Nat → List Nat} {e j m : Nat}
    (consistent : Consistent pdns tbl chain indexChain)
    (live : tbl.table.Live e) (hj : (tbl.table.entries e).indxTblEntry = j)
    (follower : m = j ∨ j ≠ m ∧ tbl.indexTable.Busy indexEntryInterface m ∧
      ∀ c, m ∈ indexChain c → j ∈ indexChain c)
    (sameMid : IpaTable.SameTable tbl.table mid)
    (midEntries : ∀ i, mid.entries i =
      { tbl.table.entries i with
        indxTblEntry :=
          if m ≠ j ∧ i = (tbl.indexTable.entries m).tblEntry then j
          else (tbl.table.entries i).indxTblEntry })
    (deleted : RuleDeleted pdns mid tbl'.table chain chain' e)
    (indexDeleted : IndexDeleted tbl.indexTable tbl'.indexTable indexChain
      indexChain' j m) :
    Consistent pdns tbl' chain' indexChain' ∧
      IpaTable.SameTable tbl.table tbl'.table ∧
      (∀ i, tbl'.table.Live i ↔ tbl.table.Live i ∧ i ≠ e) ∧
      (∀ i, tbl'.table.Live i →
        (tbl.table.entries i).Moved (tbl'.table.entries i)) ∧
      (∀ c i, tbl'.table.Live i → i ∈ chain c → i ∈ chain' c) ∧
      ∀ c i, tbl'.table.Live i →
        (tbl.table.entries i).indxTblEntry ∈ indexChain c →
          (tbl'.table.entries i).indxTblEntry ∈ indexChain' c := by
  have same := sameMid.trans deleted.same
  have midLive : ∀ i, mid.Live i ↔ tbl.table.Live i := by
    intro i
    simp only [IpaTable.Live, sameMid.totTblEnts, midEntries]
  have liveIff : ∀ i, tbl'.table.Live i ↔ tbl.table.Live i ∧ i ≠ e :=
    fun i => (deleted.live i).trans (and_congr_left' (midLive i))
  have indx : ∀ i, tbl'.table.Live i → (tbl'.table.entries i).indxTblEntry =
      if m ≠ j ∧ i = (tbl.indexTable.entries m).tblEntry then j
      else (tbl.table.entries i).indxTblEntry := by
    intro i iLive
    obtain ⟨next, prev, equal⟩ := deleted.entries i iLive
    rw [equal, midEntries]
  have jBusy : tbl.indexTable.Busy indexEntryInterface j :=
    hj ▸ (consistent.forward e live).1
  have jEntry : (tbl.indexTable.entries j).tblEntry = e :=
    hj ▸ (consistent.forward e live).2
  -- the index record of a rule that stays is not the one that goes, unless the
  -- rule is the one that moves to the head
  have place : ∀ i, tbl.table.Live i → i ≠ e →
      (m ≠ j ∧ i = (tbl.indexTable.entries m).tblEntry ∧
        (tbl.table.entries i).indxTblEntry = m) ∨
      (¬(m ≠ j ∧ i = (tbl.indexTable.entries m).tblEntry) ∧
        (tbl.table.entries i).indxTblEntry ≠ m ∧
        (tbl.table.entries i).indxTblEntry ≠ j) := by
    intro i iLive different
    obtain ⟨iBusy, iEntry⟩ := consistent.forward i iLive
    have notJ : (tbl.table.entries i).indxTblEntry ≠ j := by
      intro atJ
      rw [atJ, jEntry] at iEntry
      exact different iEntry.symm
    by_cases moves : m ≠ j ∧ i = (tbl.indexTable.entries m).tblEntry
    · have mBusy := (follower.resolve_left moves.1).2.1
      left
      refine ⟨moves.1, moves.2, ?_⟩
      rw [moves.2]
      exact (consistent.backward m mBusy).2
    · right
      refine ⟨moves, ?_, notJ⟩
      intro atM
      rcases follower with rfl | ⟨apart, -, -⟩
      · exact notJ atM
      · rw [atM] at iEntry
        exact moves ⟨apart.symm, iEntry.symm⟩
  refine ⟨⟨consistent.wired.congr same indexDeleted.same, deleted.rules,
    indexDeleted.shaped, ?_, ?_⟩, same, liveIff, ?_,
    deleted.stays, ?_⟩
  · intro i iLive
    obtain ⟨wasLive, different⟩ := (liveIff i).mp iLive
    obtain ⟨iBusy, iEntry⟩ := consistent.forward i wasLive
    rw [indx i iLive]
    rcases place i wasLive different with ⟨apart, atM, iIndx⟩ | ⟨stays, notM, notJ⟩
    · rw [if_pos ⟨apart, atM⟩, indexDeleted.busy, indexDeleted.tblEntry j apart.symm,
        if_pos rfl]
      exact ⟨⟨jBusy, apart.symm⟩, atM.symm⟩
    · rw [if_neg stays, indexDeleted.busy, indexDeleted.tblEntry _ notM,
        if_neg notJ]
      exact ⟨⟨iBusy, notM⟩, iEntry⟩
  · intro k kBusy
    obtain ⟨wasBusy, notM⟩ := (indexDeleted.busy k).mp kBusy
    rw [indexDeleted.tblEntry k notM]
    by_cases atJ : k = j
    · subst atJ
      obtain ⟨apart, mBusy, -⟩ := follower.resolve_left fun same => notM same.symm
      obtain ⟨mLive, mBack⟩ := consistent.backward m mBusy
      rw [if_pos rfl]
      have different : (tbl.indexTable.entries m).tblEntry ≠ e := by
        intro atE
        rw [atE, hj] at mBack
        exact apart mBack
      have nowLive := (liveIff _).mpr ⟨mLive, different⟩
      exact ⟨nowLive, by rw [indx _ nowLive, if_pos ⟨apart.symm, rfl⟩]⟩
    · rw [if_neg atJ]
      obtain ⟨kLive, kBack⟩ := consistent.backward k wasBusy
      have different : (tbl.indexTable.entries k).tblEntry ≠ e := by
        intro atE
        rw [atE, hj] at kBack
        exact atJ kBack.symm
      have nowLive := (liveIff _).mpr ⟨kLive, different⟩
      refine ⟨nowLive, ?_⟩
      rw [indx _ nowLive]
      rcases place _ kLive different with ⟨-, -, atM⟩ | ⟨stays, -, -⟩
      · exact absurd (kBack.symm.trans atM) notM
      · rw [if_neg stays, kBack]
  · intro i iLive
    have moved : (tbl.table.entries i).Moved (mid.entries i) :=
      ⟨_, _, _, midEntries i⟩
    exact moved.trans (deleted.entries i iLive).moved
  · intro c i iLive member
    obtain ⟨wasLive, different⟩ := (liveIff i).mp iLive
    rw [indx i iLive]
    rcases place i wasLive different with ⟨apart, atM, iIndx⟩ | ⟨stays, notM, -⟩
    · rw [if_pos ⟨apart, atM⟩]
      rw [iIndx] at member
      exact indexDeleted.stays c j apart.symm
        ((follower.resolve_left apart).2.2 c member)
    · rw [if_neg stays]
      exact indexDeleted.stays c _ notM member

theorem delRule {ruleHdl e : Nat} {ret : Except Errno Unit}
    (consistent : Consistent pdns tbl chain indexChain)
    (entry : tbl.table.getEntry ruleHdl = .ok e) (live : tbl.table.Live e)
    (result : tbl.delRule pdns ruleHdl true = (tbl', ret)) :
    ret = .ok () ∧ ∃ chain' indexChain',
      Consistent pdns tbl' chain' indexChain' ∧
      IpaTable.SameTable tbl.table tbl'.table ∧
      (∀ i, tbl'.table.Live i ↔ tbl.table.Live i ∧ i ≠ e) ∧
      (∀ i, tbl'.table.Live i →
        (tbl.table.entries i).Moved (tbl'.table.entries i)) ∧
      (∀ c i, tbl'.table.Live i → i ∈ chain c → i ∈ chain' c) ∧
      ∀ c i, tbl'.table.Live i →
        (tbl.table.entries i).indxTblEntry ∈ indexChain c →
          (tbl'.table.entries i).indxTblEntry ∈ indexChain' c := by
  have wired := consistent.wired
  generalize hj : (tbl.table.entries e).indxTblEntry = j at *
  have jBusy : tbl.indexTable.Busy indexEntryInterface j :=
    hj ▸ (consistent.forward e live).1
  have jNonzero := consistent.indexes.busy_ne_zero jBusy
  have found := tbl.indexTable.getEntryByIndex_eq_some jNonzero jBusy.1
  simp only [Ip4TableCache.delRule, entry,
    consistent.rules.shaped.iteratorInit_eq live.busy, hj, found,
    consistent.indexes.iteratorInit_eq jBusy] at result
  generalize hp : tbl.indexTable.prevIndex indexEntryInterface j = p at *
  generalize hk : tbl.indexTable.nextIndex indexEntryInterface j = k at *
  by_cases headWithTail : k ≠ 0 ∧ p = 0
  · obtain ⟨hasNext, rfl⟩ := headWithTail
    obtain ⟨kBusy, kPrev⟩ := consistent.indexes.busy_next jBusy (hk ▸ hasNext)
    rw [hk] at kBusy kPrev
    have distinct : j ≠ k := by
      have different := consistent.indexes.next_ne_self jBusy
      rw [hk] at different
      exact different.symm
    obtain ⟨secondLive, secondIndx⟩ := consistent.backward k kBusy
    generalize hn : tbl.indexTable.nextIndex indexEntryInterface k = n
    generalize hi : (tbl.indexTable.entries k).tblEntry = i at secondLive secondIndx
    have different : i ≠ e := by
      rintro rfl
      exact distinct (hj.symm.trans secondIndx)
    have step : tbl.indexTable.iteratorNext indexEntryInterface ⟨0, j, k⟩ =
        .ok ⟨j, k, n⟩ := by
      have next := (consistent.indexes.iteratorNext_eq (p := 0) jBusy).resolve_right
        (hk ▸ hasNext)
      rwa [hk, hn] at next
    have isHeadWithTail : TableIterator.isHeadWithTail ⟨0, j, k⟩ = true :=
      decide_eq_true ⟨hasNext, rfl⟩
    have copied : tbl.copySecondIndexEntryToHead ⟨0, j, k⟩
        (tbl.indexTable.createDeleteCommand indexEntryInterface [] ⟨0, j, k⟩) =
      ({ tbl with
          table := tbl.table.setEntry i
            { tbl.table.entries i with indxTblEntry := j } },
        tbl.indexTable.addDmaCmd .updateEntry j n
          (tbl.indexTable.createDeleteCommand indexEntryInterface []
            ⟨0, j, k⟩)) := by
      rw [← hi, ← hn]
      rfl
    rw [isHeadWithTail, if_pos rfl, copied] at result
    simp only [step] at result
    have rules' := consistent.rules.relabeled i j
    have sameMid := tbl.table.setEntry_same i
      { tbl.table.entries i with indxTblEntry := j }
    have midEntries : ∀ x, (tbl.table.setEntry i
        { tbl.table.entries i with indxTblEntry := j }).entries x =
          { tbl.table.entries x with
            indxTblEntry := if k ≠ j ∧ x = (tbl.indexTable.entries k).tblEntry
              then j else (tbl.table.entries x).indxTblEntry } := by
      intro x
      rw [IpaTable.setEntry_entries, hi]
      by_cases atI : x = i
      · rw [if_pos atI, if_pos ⟨distinct.symm, atI⟩, atI]
      · rw [if_neg atI, if_neg fun h => atI h.2]
    have entryE : (tbl.table.setEntry i
        { tbl.table.entries i with indxTblEntry := j }).entries e =
          tbl.table.entries e := by
      rw [IpaTable.setEntry_entries, if_neg different.symm]
    generalize hmid : tbl.table.setEntry i
      { tbl.table.entries i with indxTblEntry := j } = mid at *
    have busy' : mid.Busy (entryInterface pdns) e := by
      refine ⟨sameMid.totTblEnts.symm ▸ live.1, ?_⟩
      rw [IpaTable.isFilled, entryE]
      exact live.2.1
    have iterators : TableIterator.mk
        (tbl.table.prevIndex (entryInterface pdns) e) e
        (tbl.table.nextIndex (entryInterface pdns) e) =
      ⟨(mid.entries e).prevIndex, e, (mid.entries e).nextIndex⟩ := by
      rw [entryE]
      rfl
    rw [iterators] at result
    have help : mid.dmaHelp = Ip4TableCache.tableDmaHelp :=
      sameMid.dmaHelp.trans wired.ruleHelp
    have untouched : ∀ target : Ip4TableCache, (target.applyDma
        (tbl.indexTable.addDmaCmd .updateEntry j n
          (tbl.indexTable.createDeleteCommand indexEntryInterface []
            ⟨0, j, k⟩))).table = target.table := by
      intro target
      rw [Ip4TableCache.applyDma_indexCmd_table _ wired.indexHelp,
        Ip4TableCache.createDeleteCommand_index _ wired.indexHelp,
        Ip4TableCache.applyDma_nil]
    generalize htarget : Ip4TableCache.mk mid tbl.indexTable = target at result
    have targetTable : target.table = mid := by rw [← htarget]
    have targetIndex : target.indexTable = tbl.indexTable := by rw [← htarget]
    rw [← targetTable] at result rules' busy' help midEntries sameMid
    obtain ⟨rfl, chain', deleted⟩ := Ip4TableCache.finishDelete_rules rules'
      help busy' (untouched target) result
    obtain ⟨indexChain', indexDeleted⟩ := Ip4TableCache.indexDeleted_second
      wired.indexHelp consistent.indexes jBusy hk hn hasNext targetIndex
      (Ip4TableCache.finishDelete_indexTable help result)
    refine ⟨rfl, chain', indexChain', ?_⟩
    exact consistent.of_deleted live hj
      (Or.inr ⟨distinct, kBusy, fun c member =>
        consistent.indexes.buckets.mem_of_next_mem jNonzero kPrev member⟩)
      sameMid midEntries deleted indexDeleted
  · have isHeadWithTail :
        TableIterator.isHeadWithTail ⟨p, j, k⟩ = false :=
      decide_eq_false headWithTail
    rw [isHeadWithTail, if_neg Bool.false_ne_true] at result
    have untouched : (tbl.applyDma (tbl.indexTable.createDeleteCommand
        indexEntryInterface [] ⟨p, j, k⟩)).table = tbl.table := by
      rw [Ip4TableCache.createDeleteCommand_index _ wired.indexHelp,
        Ip4TableCache.applyDma_nil]
    obtain ⟨rfl, chain', deleted⟩ := Ip4TableCache.finishDelete_rules
      consistent.rules wired.ruleHelp live.busy untouched result
    have removable : p ≠ 0 ∨ k = 0 := by
      by_cases head : p = 0
      · exact Or.inr (by_contra fun hasNext => headWithTail ⟨hasNext, head⟩)
      · exact Or.inl head
    obtain ⟨indexChain', indexDeleted⟩ := Ip4TableCache.indexDeleted_self
      wired.indexHelp consistent.indexes jBusy hp hk removable
      (Ip4TableCache.finishDelete_indexTable wired.ruleHelp result)
    refine ⟨rfl, chain', indexChain', ?_⟩
    apply consistent.of_deleted live hj (Or.inl rfl)
      (IpaTable.SameTable.refl tbl.table) _ deleted indexDeleted
    intro i
    simp

end Consistent

end VendorModules.IpaNat

namespace VendorModules.IpaNat

open VendorModules.Lib

/-! What the hardware needs of a NAT table, told from the links alone. -/

section

variable {E U : Type}

/-- The chains of one table. A chain starts at a base record; record zero is
never part of one. -/
structure IpaTable.WellFormed (ei : EntryInterface E U) (table : IpaTable E) :
    Prop where
  finite : ∀ b, 0 < b → b < table.tableEntries →
    ∃ l, Follows (table.nextIndex ei) 0 b l ∧ l.Nodup
  inverse : ∀ i j, table.Busy ei i → table.Busy ei j →
    (table.nextIndex ei i = j ↔ table.prevIndex ei j = i)
  nextBusy : ∀ i, table.Busy ei i →
    table.nextIndex ei i = 0 ∨ table.Busy ei (table.nextIndex ei i)
  prevBusy : ∀ i, table.Busy ei i →
    table.prevIndex ei i = 0 ∨ table.Busy ei (table.prevIndex ei i)
  covered : ∀ i, table.tableEntries ≤ i → table.Busy ei i →
    ∃! b, (0 < b ∧ b < table.tableEntries) ∧
      ∃ l, Follows (table.nextIndex ei) 0 b l ∧ i ∈ l
  tblCnt : table.curTblCnt =
    population (Finset.range table.tableEntries) (table.isFilled ei)
  expnCnt : table.curExpnTblCnt =
    population (Finset.Ico table.tableEntries table.totTblEnts)
      (table.isFilled ei)

variable {ei : EntryInterface E U} {table : IpaTable E}
  {chain : Nat → List Nat}

namespace IpaTable.Shaped

variable (shaped : table.Shaped ei chain)
include shaped

theorem visits {b : Nat} (positive : 0 < b) (inside : b < table.tableEntries) :
    Follows (table.nextIndex ei) 0 b
      (if chain b = [] then [b] else chain b) := by
  by_cases vacant : chain b = []
  · have free : table.isFilled ei b = false := by
      cases filled : table.isFilled ei b with
      | false => rfl
      | true => exact absurd vacant ((shaped.filled_base_iff inside).mp filled)
    obtain ⟨last, -⟩ := shaped.vacant b
      (inside.trans table.tableEntries_lt_totTblEnts) free
    rw [if_pos vacant]
    exact ⟨positive.ne', rfl, last⟩
  · rw [if_neg vacant]
    exact shaped.buckets.follows_head vacant

theorem reaches {b i : Nat} (member : i ∈ chain b) :
    ∃ l, Follows (table.nextIndex ei) 0 b l ∧ i ∈ l :=
  ⟨chain b, shaped.buckets.follows_head (List.ne_nil_of_mem member), member⟩

theorem mem_of_visited {b i : Nat} {l : List Nat} (positive : 0 < b)
    (inside : b < table.tableEntries) (filled : table.isFilled ei i = true)
    (walk : Follows (table.nextIndex ei) 0 b l) (met : i ∈ l) : i ∈ chain b := by
  rw [walk.unique (shaped.visits positive inside)] at met
  by_cases vacant : chain b = []
  · rw [if_pos vacant, List.mem_singleton] at met
    rw [met] at filled
    exact absurd vacant ((shaped.filled_base_iff inside).mp filled)
  · rwa [if_neg vacant] at met

theorem home_inside {b i : Nat} (member : i ∈ chain b) :
    0 < b ∧ b < table.tableEntries := by
  have nonempty := List.ne_nil_of_mem member
  obtain ⟨tail, -, isHead, -⟩ := shaped.buckets.eq_cons nonempty
  exact ⟨Nat.pos_of_ne_zero
    (shaped.buckets.ne_nil_of_mem (shaped.buckets.head_mem nonempty)), isHead⟩

theorem wellFormed : table.WellFormed ei where
  finite := by
    intro b positive inside
    refine ⟨_, shaped.visits positive inside, ?_⟩
    split
    · exact List.nodup_singleton b
    · exact shaped.buckets.nodup b
  inverse := by
    intro i j iBusy jBusy
    constructor
    · intro link
      exact (shaped.buckets.prev_of_next iBusy (shaped.busy_ne_zero jBusy) link).2
    · intro link
      exact (shaped.buckets.next_of_prev jBusy (shaped.busy_ne_zero iBusy) link).2
  nextBusy := by
    intro i busy
    by_cases last : table.nextIndex ei i = 0
    · exact Or.inl last
    · exact Or.inr (shaped.busy_next busy last).1
  prevBusy := by
    intro i busy
    by_cases first : table.prevIndex ei i = 0
    · exact Or.inl first
    · exact Or.inr (shaped.busy_prev busy first).1
  covered := by
    intro i _ busy
    obtain ⟨b, member⟩ := (shaped.buckets.covers i).mp busy
    have home := shaped.home_inside member
    refine ⟨b, ⟨home, shaped.reaches member⟩, ?_⟩
    rintro c ⟨⟨cPositive, cInside⟩, l, walk, met⟩
    exact shaped.buckets.disjoint c b i
      (shaped.mem_of_visited cPositive cInside busy.2 walk met) member
  tblCnt := shaped.tblCnt
  expnCnt := shaped.expnCnt

end IpaTable.Shaped

end

structure Ip4TableCache.WellFormed (pdns : Pdns) (tbl : Ip4TableCache) :
    Prop where
  rules : tbl.table.WellFormed (entryInterface pdns)
  indexes : tbl.indexTable.WellFormed indexEntryInterface
  crossed : Set.BijOn (fun i => (tbl.table.entries i).indxTblEntry)
    {i | tbl.table.Live i} {j | tbl.indexTable.Busy indexEntryInterface j}
  back : ∀ i, tbl.table.Live i →
    (tbl.indexTable.entries (tbl.table.entries i).indxTblEntry).tblEntry = i

theorem Consistent.wellFormed {pdns : Pdns} {tbl : Ip4TableCache}
    {chain indexChain : Nat → List Nat}
    (consistent : Consistent pdns tbl chain indexChain) : tbl.WellFormed pdns where
  rules := consistent.rules.shaped.wellFormed
  indexes := consistent.indexes.wellFormed
  crossed := by
    refine ⟨fun i live => (consistent.forward i live).1, ?_, ?_⟩
    · intro i iLive k kLive same
      calc
        i = (tbl.indexTable.entries (tbl.table.entries i).indxTblEntry).tblEntry :=
          (consistent.forward i iLive).2.symm
        _ = (tbl.indexTable.entries (tbl.table.entries k).indxTblEntry).tblEntry :=
          congrArg (fun j => (tbl.indexTable.entries j).tblEntry) same
        _ = k := (consistent.forward k kLive).2
    · intro j busy
      obtain ⟨live, back⟩ := consistent.backward j busy
      exact ⟨_, live, back⟩
  back := fun i live => (consistent.forward i live).2

end VendorModules.IpaNat
