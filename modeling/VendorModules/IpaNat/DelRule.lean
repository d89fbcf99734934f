import VendorModules.IpaNat.RuleTable

namespace VendorModules.IpaNat

open VendorModules.Lib

/-! ### Deleting from the rule table -/

/-- The rule in slot `e` is gone, every other rule is where it was. -/
structure RuleDeleted (pdns : Pdns) (table table' : IpaTable NatRule)
    (chain chain' : Nat → List Nat) (e : Nat) : Prop where
  same : IpaTable.SameTable table table'
  rules : RuleTable pdns table' chain'
  live : ∀ i, table'.Live i ↔ table.Live i ∧ i ≠ e
  entries : ∀ i, table'.Live i → (table.entries i).Relinked (table'.entries i)
  stays : ∀ c i, table'.Live i → i ∈ chain c → i ∈ chain' c

namespace IpaTable

variable {E U : Type} {ei : EntryInterface E U}

theorem deleteEntry_prevInUse (table : IpaTable E) {p e n : Nat}
    (nonzero : n ≠ 0) (isPrevEmpty : Bool) :
    table.deleteEntry ei ⟨p, e, n⟩ isPrevEmpty =
      table.deleteEntry ei ⟨p, e, n⟩ false := by
  simp only [deleteEntry, ne_eq, nonzero, not_false_eq_true, if_true]

theorem deleteEntry_entries (pdns : Pdns) (table : IpaTable NatRule)
    (p e n i : Nat) :
    (table.deleteEntry (entryInterface pdns) ⟨p, e, n⟩ false).entries i =
      if i = e then NatRule.blank
      else if n ≠ 0 ∧ i = n then { table.entries i with prevIndex := p }
      else table.entries i := by
  simp only [deleteEntry, eraseEntry_entries, Function.update_apply]
  by_cases last : n = 0
  · simp [last, entryInterface]
  · by_cases atE : i = e
    · simp [atE, entryInterface]
    · by_cases atN : i = n
      · subst atN
        simp [last, atE, setPrevIndex, setEntry, entryInterface]
      · simp [last, atE, atN, setPrevIndex, setEntry]

end IpaTable

theorem mem_shortened {chain : Nat → List Nat} {b c e i : Nat}
    {l r : List Nat} (shape : chain b = l ++ e :: r) (different : i ≠ e)
    (member : i ∈ chain c) : i ∈ Function.update chain b (l ++ r) c := by
  by_cases same : c = b
  · subst same
    rw [Function.update_self]
    rw [shape] at member
    simp only [List.mem_append, List.mem_cons] at member ⊢
    tauto
  · rwa [Function.update_of_ne same]

namespace RuleTable

variable {pdns : Pdns} {table : IpaTable NatRule} {chain : Nat → List Nat}

theorem prev_ne_self (rules : RuleTable pdns table chain) {e : Nat}
    (busy : table.Busy (entryInterface pdns) e) (nonzero : (table.entries e).prevIndex ≠ 0) :
    (table.entries e).prevIndex ≠ e := by
  intro loop
  have back := (rules.shaped.busy_prev busy nonzero).2
  rw [IpaTable.prevIndex, show (entryInterface pdns).entryGetPrevIndex
    (table.entries e) e table.metaPrev table.tableEntries =
      (table.entries e).prevIndex from rfl, loop] at back
  exact rules.shaped.next_ne_self busy back

theorem markDead (rules : RuleTable pdns table chain) {e : Nat}
    (busy : table.Busy (entryInterface pdns) e) (hasNext : (table.entries e).nextIndex ≠ 0)
    (isHead : (table.entries e).prevIndex = 0) (timeStamp : BitVec 24) :
    RuleDeleted pdns table
      (table.setEntry e
        { table.entries e with
          timeStamp := timeStamp
          protocol := natInvalidProtocol })
      chain chain e := by
  have inBase : e < table.tableEntries :=
    (rules.shaped.prev_eq_zero_iff busy).mp isHead
  refine ⟨⟨rfl, rfl, rfl, rfl⟩, ⟨?_, ?_⟩, ?_, ?_, fun _ _ _ member => member⟩
  · refine rules.shaped.congr ⟨rfl, rfl, rfl, rfl⟩ ?_ ?_ ?_ rfl rfl
    · intro i _
      rw [IpaTable.isFilled_setEntry]
      split
      · next same => rw [same]; rfl
      · rfl
    · intro i _
      rw [IpaTable.nextIndex_setEntry]
      split
      · next same => rw [same]; rfl
      · rfl
    · intro i _
      rw [IpaTable.prevIndex_setEntry]
      split
      · next same => rw [same]; rfl
      · rfl
  · rintro i ⟨inside, filled⟩ protocol
    by_cases same : i = e
    · subst same
      rw [IpaTable.setEntry_entries, if_pos rfl]
      exact ⟨inBase, hasNext⟩
    · rw [IpaTable.setEntry_entries, if_neg same] at protocol ⊢
      rw [IpaTable.isFilled_setEntry, if_neg same] at filled
      exact rules.dead i ⟨inside, filled⟩ protocol
  · intro i
    by_cases same : i = e
    · subst same
      simp [IpaTable.Live, IpaTable.setEntry_entries]
    · simp [IpaTable.Live, IpaTable.setEntry_entries, same]
  · rintro i ⟨-, -, protocol⟩
    rw [IpaTable.setEntry_entries] at protocol ⊢
    split at protocol
    · exact absurd rfl protocol
    · next different =>
      rw [if_neg different]
      exact NatRule.Relinked.refl _

theorem unlinked (rules : RuleTable pdns table chain) {table' : IpaTable NatRule}
    {e : Nat} (busy : table.Busy (entryInterface pdns) e)
    (removable : (table.entries e).prevIndex ≠ 0 ∨ (table.entries e).nextIndex = 0)
    (unlinked : table.Unlinked (entryInterface pdns) table' e
      (table.entries e).prevIndex (table.entries e).nextIndex)
    (entries : ∀ i, i ≠ e → (table.entries i).Relinked (table'.entries i)) :
    ∃ chain', table'.Shaped (entryInterface pdns) chain' ∧
      (∀ i, table'.Live i ↔ table.Live i ∧ i ≠ e) ∧
      ∀ c i, i ≠ e → i ∈ chain c → i ∈ chain' c := by
  obtain ⟨b, l, r, shape, shaped⟩ :=
    rules.shaped.unlink busy removable unlinked
  refine ⟨_, shaped, fun i => ?_,
    fun c i different member => mem_shortened shape different member⟩
  by_cases same : i = e
  · subst same
    have freed : (table'.entries i).enable = false := by
      have filled := unlinked.filled i
      rwa [if_pos rfl] at filled
    simp [IpaTable.Live, freed]
  · obtain ⟨next, prev, equal⟩ := entries i same
    simp [IpaTable.Live, unlinked.same.totTblEnts, equal, same]

theorem unlinkBehind (rules : RuleTable pdns table chain) {e p n : Nat}
    (busy : table.Busy (entryInterface pdns) e) (hp : (table.entries e).prevIndex = p)
    (hn : (table.entries e).nextIndex = n) (hasPrev : p ≠ 0) :
    ∃ chain', RuleDeleted pdns table
      ((table.setEntry p { table.entries p with nextIndex := n }).deleteEntry
        (entryInterface pdns) ⟨p, e, n⟩
        (decide ((table.entries p).protocol = natInvalidProtocol)))
      chain chain' e := by
  have lawful := entryInterface_lawful pdns
  have prevEq : table.prevIndex (entryInterface pdns) e = p := hp
  have nextEq : table.nextIndex (entryInterface pdns) e = n := hn
  obtain ⟨pBusy, pNext⟩ := rules.shaped.busy_prev busy (prevEq ▸ hasPrev)
  rw [prevEq] at pBusy pNext
  have pNext : (table.entries p).nextIndex = e := pNext
  have distinct : p ≠ e := by
    have different := rules.prev_ne_self busy (hp ▸ hasPrev)
    rwa [hp] at different
  generalize hposted : table.setEntry p { table.entries p with nextIndex := n } =
    posted
  have postedEntries : ∀ i, posted.entries i =
      if i = p then { table.entries p with nextIndex := n }
      else table.entries i := by
    intro i
    rw [← hposted]
    exact IpaTable.setEntry_entries _ _ _ _
  have same : IpaTable.SameTable table posted := by
    rw [← hposted]
    exact ⟨rfl, rfl, rfl, rfl⟩
  generalize hfreed : posted.deleteEntry (entryInterface pdns) ⟨p, e, n⟩ false =
    freed
  have unlinked : table.Unlinked (entryInterface pdns) freed e
      (table.entries e).prevIndex (table.entries e).nextIndex := by
    rw [hp, hn, ← hfreed]
    apply IpaTable.deleteEntry_unlinked lawful same
    · intro i _
      simp only [IpaTable.isFilled, postedEntries]
      split
      · next atP => rw [atP]; rfl
      · rfl
    · intro i _
      simp only [IpaTable.nextIndex, postedEntries]
      by_cases atP : i = p
      · rw [if_pos atP, if_pos ⟨hasPrev, atP⟩]
        rfl
      · rw [if_neg atP, if_neg fun h => atP h.2]
    · intro i _
      simp only [IpaTable.prevIndex, postedEntries]
      split
      · next atP => rw [atP]; rfl
      · rfl
    · rw [← hposted]
      rfl
    · rw [← hposted]
      rfl
    · intro nonzero
      have overflow := rules.shaped.next_overflow busy (nextEq ▸ nonzero)
      rwa [nextEq] at overflow
  have freedEntries : ∀ i, i ≠ e → (table.entries i).Relinked (freed.entries i) := by
    intro i different
    rw [← hfreed, IpaTable.deleteEntry_entries, if_neg different]
    have moved : (table.entries i).Relinked (posted.entries i) := by
      rw [postedEntries]
      split
      · next atP =>
        rw [atP]
        exact NatRule.relinked_next _ _
      · exact NatRule.Relinked.refl _
    split
    · exact moved.trans (NatRule.relinked_prev _ _)
    · exact moved
  have freedNext : ∀ i, i ≠ e → (freed.entries i).nextIndex =
      if i = p then n else (table.entries i).nextIndex := by
    intro i different
    have view := unlinked.next i
    rw [if_neg different, hp, hn] at view
    simp only [ne_eq, hasPrev, not_false_eq_true, true_and] at view
    exact view
  have freedSame := unlinked.same
  obtain ⟨chain', shaped, liveIff, stays⟩ :=
    rules.unlinked busy (Or.inl (hp ▸ hasPrev)) unlinked freedEntries
  have liveNe : ∀ i, freed.Live i → i ≠ e := fun i iLive => ((liveIff i).mp iLive).2
  -- a record that is dead after the deletion was dead before it
  have stillDead : ∀ i, freed.Busy (entryInterface pdns) i →
      (freed.entries i).protocol = natInvalidProtocol →
        i ≠ e ∧ (table.entries i).protocol = natInvalidProtocol ∧
          i < table.tableEntries ∧ (table.entries i).nextIndex ≠ 0 := by
    rintro i ⟨inside, filled⟩ protocol
    rw [unlinked.filled] at filled
    by_cases atE : i = e
    · simp [atE] at filled
    · rw [if_neg atE] at filled
      obtain ⟨next, prev, equal⟩ := freedEntries i atE
      rw [equal] at protocol
      exact ⟨atE, protocol,
        rules.dead i ⟨freedSame.totTblEnts ▸ inside, filled⟩ protocol⟩
  by_cases inUse : n = 0 ∧ (table.entries p).protocol = natInvalidProtocol
  · obtain ⟨rfl, pDead⟩ := inUse
    obtain ⟨pBase, -⟩ := rules.dead p pBusy pDead
    have purged : posted.deleteEntry (entryInterface pdns) ⟨p, e, 0⟩ true =
        freed.eraseEntry (entryInterface pdns) p := by
      rw [← hfreed]
      exact IpaTable.deleteEntry_prevEmpty hasPrev distinct
        (same.tableEntries.symm ▸ pBase)
    rw [decide_eq_true pDead, purged]
    have pNotLive : ¬freed.Live p := by
      intro pLive
      obtain ⟨next, prev, equal⟩ := freedEntries p distinct
      have protocol := pLive.2.2
      rw [equal] at protocol
      exact protocol pDead
    have pBusyFreed : freed.Busy (entryInterface pdns) p := by
      refine ⟨freedSame.totTblEnts.symm ▸ pBusy.1, ?_⟩
      rw [unlinked.filled, if_neg distinct]
      exact pBusy.2
    have pPrev : freed.prevIndex (entryInterface pdns) p = 0 :=
      (shaped.prev_eq_zero_iff pBusyFreed).mpr
        (freedSame.tableEntries.symm ▸ pBase)
    have pNextFreed : freed.nextIndex (entryInterface pdns) p = 0 :=
      (freedNext p distinct).trans (if_pos rfl)
    have erased := freed.eraseEntry_unlinked lawful p
    obtain ⟨b, l, r, shape, shaped'⟩ :=
      shaped.unlink pBusyFreed (Or.inr pNextFreed)
        (by rw [pPrev, pNextFreed]; exact erased)
    have erasedEntries : ∀ i, i ≠ p →
        (freed.eraseEntry (entryInterface pdns) p).entries i =
          freed.entries i := by
      intro i different
      rw [IpaTable.eraseEntry_entries, Function.update_of_ne different]
    have erasedLive : ∀ i,
        (freed.eraseEntry (entryInterface pdns) p).Live i ↔ freed.Live i := by
      intro i
      by_cases atP : i = p
      · subst atP
        refine iff_of_false (RuleTable.not_live_blank ?_) pNotLive
        rw [IpaTable.eraseEntry_entries, Function.update_self]
        rfl
      · simp only [IpaTable.Live, erased.same.totTblEnts, erasedEntries i atP]
    refine ⟨_, ⟨freedSame.trans erased.same, ⟨shaped', ?_⟩, ?_, ?_, ?_⟩⟩
    · rintro i ⟨inside, filled⟩ protocol
      rw [erased.filled] at filled
      by_cases atP : i = p
      · simp [atP] at filled
      · rw [if_neg atP] at filled
        rw [erasedEntries i atP] at protocol ⊢
        rw [erased.same.totTblEnts] at inside
        obtain ⟨atE, -, base, next⟩ := stillDead i ⟨inside, filled⟩ protocol
        rw [erased.same.tableEntries, freedSame.tableEntries, freedNext i atE,
          if_neg atP]
        exact ⟨base, next⟩
    · exact fun i => (erasedLive i).trans (liveIff i)
    · intro i iLive
      have iFreed := (erasedLive i).mp iLive
      have different : i ≠ p := by
        rintro rfl
        exact pNotLive iFreed
      rw [erasedEntries i different]
      exact freedEntries i (liveNe i iFreed)
    · intro c i iLive member
      have iFreed := (erasedLive i).mp iLive
      have different : i ≠ p := by
        rintro rfl
        exact pNotLive iFreed
      exact mem_shortened shape different (stays c i (liveNe i iFreed) member)
  · have kept : posted.deleteEntry (entryInterface pdns) ⟨p, e, n⟩
        (decide ((table.entries p).protocol = natInvalidProtocol)) = freed := by
      by_cases last : n = 0
      · rw [decide_eq_false fun pDead => inUse ⟨last, pDead⟩, hfreed]
      · rw [IpaTable.deleteEntry_prevInUse _ last, hfreed]
    rw [kept]
    refine ⟨chain', ⟨freedSame, ⟨shaped, ?_⟩, liveIff, ?_, ?_⟩⟩
    · rintro i iBusy protocol
      obtain ⟨atE, wasDead, base, next⟩ := stillDead i iBusy protocol
      rw [freedSame.tableEntries, freedNext i atE]
      refine ⟨base, ?_⟩
      split
      · next atP => exact fun last => inUse ⟨last, atP ▸ wasDead⟩
      · exact next
    · exact fun i iLive => freedEntries i (liveNe i iLive)
    · exact fun c i iLive member => stays c i (liveNe i iLive) member

theorem freeSingle (rules : RuleTable pdns table chain) {e : Nat}
    (busy : table.Busy (entryInterface pdns) e) (hp : (table.entries e).prevIndex = 0)
    (hn : (table.entries e).nextIndex = 0) (entry : NatRule) :
    ∃ chain', RuleDeleted pdns table
      ((table.setEntry e entry).deleteEntry (entryInterface pdns) ⟨0, e, 0⟩
        false) chain chain' e := by
  have lawful := entryInterface_lawful pdns
  have unlinked : table.Unlinked (entryInterface pdns)
      ((table.setEntry e entry).deleteEntry (entryInterface pdns) ⟨0, e, 0⟩
        false) e (table.entries e).prevIndex (table.entries e).nextIndex := by
    rw [hp, hn]
    apply IpaTable.deleteEntry_unlinked lawful (table.setEntry_same e entry)
    · intro i different
      rw [IpaTable.isFilled_setEntry, if_neg different]
    · intro i different
      rw [IpaTable.nextIndex_setEntry, if_neg different]
      simp
    · intro i different
      rw [IpaTable.prevIndex_setEntry, if_neg different]
    · rfl
    · rfl
    · exact fun nonzero => absurd rfl nonzero
  have entries : ∀ i, i ≠ e →
      ((table.setEntry e entry).deleteEntry (entryInterface pdns) ⟨0, e, 0⟩
        false).entries i = table.entries i := by
    intro i different
    rw [IpaTable.deleteEntry_entries, if_neg different]
    simp [IpaTable.setEntry_entries, different]
  obtain ⟨chain', shaped, liveIff, stays⟩ :=
    rules.unlinked busy (Or.inr hn) unlinked fun i different => by
      rw [entries i different]
      exact NatRule.Relinked.refl _
  refine ⟨chain', ⟨unlinked.same, ⟨shaped, ?_⟩, liveIff, ?_, ?_⟩⟩
  · rintro i ⟨inside, filled⟩ protocol
    rw [unlinked.filled] at filled
    by_cases atE : i = e
    · simp [atE] at filled
    · rw [if_neg atE] at filled
      rw [entries i atE] at protocol ⊢
      rw [unlinked.same.tableEntries]
      exact rules.dead i ⟨unlinked.same.totTblEnts ▸ inside, filled⟩ protocol
  · intro i iLive
    rw [entries i ((liveIff i).mp iLive).2]
    exact NatRule.Relinked.refl _
  · exact fun c i iLive member => stays c i ((liveIff i).mp iLive).2 member

end RuleTable

/-! ### Posting a deletion -/

namespace Ip4TableCache

variable {pdns : Pdns} {tbl tbl' : Ip4TableCache} {chain : Nat → List Nat}

theorem createDeleteCommand_index (target : Ip4TableCache)
    {index : IpaTable IndxTblRule} (help : index.dmaHelp = indexTableDmaHelp)
    (cmd : DmaCmd) (iterator : TableIterator) :
    (target.applyDma
      (index.createDeleteCommand indexEntryInterface cmd iterator)).table =
        (target.applyDma cmd).table := by
  unfold IpaTable.createDeleteCommand
  split
  · split <;> exact target.applyDma_indexCmd_table help _ _ _ _
  · exact target.applyDma_indexCmd_table help _ _ _ _

theorem createDeleteCommand_rule_indexTable (target : Ip4TableCache)
    {table : IpaTable NatRule} (help : table.dmaHelp = tableDmaHelp)
    (cmd : DmaCmd) (iterator : TableIterator) :
    (target.applyDma
      (table.createDeleteCommand (entryInterface pdns) cmd iterator)).indexTable =
        (target.applyDma cmd).indexTable := by
  unfold IpaTable.createDeleteCommand
  split
  · split <;> exact target.applyDma_ruleCmd_indexTable help _ _ _ _
  · exact target.applyDma_ruleCmd_indexTable help _ _ _ _

private theorem dmaWrite_tableProtocol (rule : NatRule) :
    rule.dmaWrite .tableProtocol natInvalidProtoFieldValue =
      { rule with
        timeStamp := BitVec.ofNat 24 (rule.timeStamp.toNat % 65536)
        protocol := natInvalidProtocol } := by
  simp [NatRule.dmaWrite, natInvalidProtoFieldValue, natInvalidProtocol]

theorem finishDelete_rules (rules : RuleTable pdns tbl.table chain)
    (help : tbl.table.dmaHelp = tableDmaHelp) {e : Nat}
    (busy : tbl.table.Busy (entryInterface pdns) e) {iterator : TableIterator}
    {cmd : DmaCmd} (untouched : (tbl.applyDma cmd).table = tbl.table)
    {ret : Except Errno Unit}
    (result : finishDelete pdns tbl
      ⟨(tbl.table.entries e).prevIndex, e, (tbl.table.entries e).nextIndex⟩
      iterator cmd true = (tbl', ret)) :
    ret = .ok () ∧
      ∃ chain', RuleDeleted pdns tbl.table tbl'.table chain chain' e := by
  generalize hp : (tbl.table.entries e).prevIndex = p at result
  generalize hn : (tbl.table.entries e).nextIndex = n at result
  simp only [finishDelete, Bool.not_true, Bool.false_eq_true, if_false,
    Prod.mk.injEq] at result
  obtain ⟨rfl, rfl⟩ := result
  refine ⟨rfl, ?_⟩
  by_cases head : p = 0
  · subst head
    by_cases single : n = 0
    · subst single
      have posted : tbl.table.createDeleteCommand (entryInterface pdns) cmd
          ⟨0, e, 0⟩ = tbl.table.addDmaCmd .updateHead e 0 cmd := rfl
      simp only [posted, applyDma_ruleCmd rfl help busy.1, dmaRule_table,
        untouched, TableIterator.isHeadWithTail, ne_eq, not_true, false_and,
        decide_false, Bool.false_eq_true, if_false]
      exact rules.freeSingle busy hp hn _
    · have posted : tbl.table.createDeleteCommand (entryInterface pdns) cmd
          ⟨0, e, n⟩ =
            tbl.table.addDmaCmd .deleteHead e natInvalidProtoFieldValue cmd := by
        simp only [IpaTable.createDeleteCommand, if_true, ne_eq, single,
          not_false_eq_true]
        rfl
      simp only [posted, applyDma_ruleCmd rfl help busy.1, dmaRule_table,
        untouched, TableIterator.isHeadWithTail, ne_eq, single,
        not_false_eq_true, and_self, decide_true, if_true, tableDmaHelp,
        dmaWrite_tableProtocol]
      exact ⟨chain, rules.markDead busy (hn ▸ single) hp _⟩
  · have pBusy : tbl.table.Busy (entryInterface pdns) p := by
      have linked : tbl.table.prevIndex (entryInterface pdns) e = p := hp
      exact linked ▸ (rules.shaped.busy_prev busy (linked ▸ head)).1
    have posted : tbl.table.createDeleteCommand (entryInterface pdns) cmd
        ⟨p, e, n⟩ = tbl.table.addDmaCmd .updateEntry p n cmd := by
      simp only [IpaTable.createDeleteCommand, if_neg head]
    have protocol : ((tbl.table.setEntry p
        ((tbl.table.entries p).dmaWrite (tableDmaHelp .updateEntry).field
          n)).entries p).protocol = (tbl.table.entries p).protocol := by
      rw [IpaTable.setEntry_entries, if_pos rfl]
      rfl
    simp only [posted, applyDma_ruleCmd rfl help pBusy.1, dmaRule_table,
      untouched, TableIterator.isHeadWithTail, ne_eq, head, and_false,
      decide_false, Bool.false_eq_true, if_false, not_false_eq_true, true_and,
      protocol]
    exact rules.unlinkBehind busy hp hn head

theorem delRule_cases {ruleHdl : Nat} {dma : Bool} {ret : Except Errno Unit}
    (result : tbl.delRule pdns ruleHdl dma = (tbl', ret)) :
    (∃ errno, ret = .error errno ∧ tbl' = tbl) ∨
    (∃ errno iterator, ret = .error errno ∧
      tbl' = (tbl.copySecondIndexEntryToHead iterator []).1) ∨
    ∃ e iterator tableIterator, tbl.table.getEntry ruleHdl = .ok e ∧
      tbl.table.iteratorInit (entryInterface pdns) e = .ok tableIterator ∧
      tbl.indexTable.iteratorInit indexEntryInterface
        (tbl.table.entries e).indxTblEntry = .ok iterator ∧
      ((iterator.isHeadWithTail = false ∧
          finishDelete pdns tbl tableIterator iterator
            (tbl.indexTable.createDeleteCommand indexEntryInterface []
              iterator) dma = (tbl', ret)) ∨
        (iterator.isHeadWithTail = true ∧ ∃ second,
          tbl.indexTable.iteratorNext indexEntryInterface iterator =
            .ok second ∧
          finishDelete pdns (tbl.copySecondIndexEntryToHead iterator []).1
            tableIterator second
            (tbl.copySecondIndexEntryToHead iterator
              (tbl.indexTable.createDeleteCommand indexEntryInterface []
                iterator)).2 dma = (tbl', ret))) := by
  simp only [delRule] at result
  cases entry : tbl.table.getEntry ruleHdl with
  | error errno =>
    simp only [entry, Prod.mk.injEq] at result
    exact Or.inl ⟨errno, result.2.symm, result.1.symm⟩
  | ok e =>
    cases init : tbl.table.iteratorInit (entryInterface pdns) e with
    | error errno =>
      simp only [entry, init, Prod.mk.injEq] at result
      exact Or.inl ⟨errno, result.2.symm, result.1.symm⟩
    | ok tableIterator =>
      simp only [entry, init] at result
      split at result
      · simp only [Prod.mk.injEq] at result
        exact Or.inl ⟨.eperm, result.2.symm, result.1.symm⟩
      · split at result
        · next errno _ =>
          simp only [Prod.mk.injEq] at result
          exact Or.inl ⟨errno, result.2.symm, result.1.symm⟩
        · next iterator found =>
          by_cases headWithTail : iterator.isHeadWithTail = true
          · rw [if_pos headWithTail] at result
            split at result
            · next errno _ =>
              simp only [Prod.mk.injEq] at result
              exact Or.inr (Or.inl ⟨errno, iterator, result.2.symm,
                result.1.symm⟩)
            · next second next =>
              exact Or.inr (Or.inr ⟨e, iterator, tableIterator, rfl, init,
                found, Or.inr ⟨headWithTail, second, next, result⟩⟩)
          · rw [if_neg headWithTail] at result
            exact Or.inr (Or.inr ⟨e, iterator, tableIterator, rfl, init,
              found, Or.inl ⟨Bool.eq_false_iff.mpr headWithTail, result⟩⟩)

private theorem copySecond_cmd (tbl : Ip4TableCache) (iterator : TableIterator)
    (cmd : DmaCmd) :
    (tbl.copySecondIndexEntryToHead iterator cmd).2 =
      tbl.indexTable.addDmaCmd .updateEntry iterator.currIndex
        (tbl.indexTable.entries iterator.nextIndex).nextIndex cmd := rfl

theorem delRule_rules (wired : tbl.Wired)
    (rules : RuleTable pdns tbl.table chain) {ruleHdl : Nat} {dma : Bool}
    {ret : Except Errno Unit}
    (result : tbl.delRule pdns ruleHdl dma = (tbl', ret)) :
    ∃ mid, (mid = tbl.table ∨ ∃ k x, mid =
        tbl.table.setEntry k { tbl.table.entries k with indxTblEntry := x }) ∧
      (((∃ errno, ret = .error errno) ∧ tbl'.table = mid) ∨
        (ret = .ok () ∧ ∃ e chain', tbl.table.getEntry ruleHdl = .ok e ∧
          tbl.table.Busy (entryInterface pdns) e ∧
          RuleDeleted pdns mid tbl'.table chain chain' e)) := by
  have initBusy : ∀ {e tableIterator},
      tbl.table.getEntry ruleHdl = .ok e →
      tbl.table.iteratorInit (entryInterface pdns) e = .ok tableIterator →
      tbl.table.Busy (entryInterface pdns) e ∧ tableIterator =
        ⟨(tbl.table.entries e).prevIndex, e,
          (tbl.table.entries e).nextIndex⟩ := by
    intro e tableIterator entry init
    have inside : e < tbl.table.totTblEnts := by
      simp only [IpaTable.getEntry] at entry
      split at entry
      · cases entry
      · next bound =>
        simp only [Except.ok.injEq] at entry
        exact entry ▸ Nat.lt_of_not_le bound
    have filled : tbl.table.isFilled (entryInterface pdns) e = true := by
      cases vacant : tbl.table.isFilled (entryInterface pdns) e with
      | true => rfl
      | false => simp [IpaTable.iteratorInit, vacant] at init
    have busy : tbl.table.Busy (entryInterface pdns) e := ⟨inside, filled⟩
    rw [rules.shaped.iteratorInit_eq busy, Except.ok.injEq] at init
    exact ⟨busy, init.symm⟩
  rcases delRule_cases result with ⟨errno, rfl, rfl⟩ |
    ⟨errno, iterator, rfl, rfl⟩ | ⟨e, iterator, tableIterator, entry, init, -, finish⟩
  · exact ⟨tbl'.table, Or.inl rfl, Or.inl ⟨⟨errno, rfl⟩, rfl⟩⟩
  · exact ⟨_, Or.inr ⟨_, _, rfl⟩, Or.inl ⟨⟨errno, rfl⟩, rfl⟩⟩
  · obtain ⟨busy, rfl⟩ := initBusy entry init
    rcases finish with ⟨-, finish⟩ | ⟨-, second, -, finish⟩
    · cases dma with
      | false =>
        simp only [finishDelete, Bool.not_false, if_true,
          Prod.mk.injEq] at finish
        obtain ⟨rfl, rfl⟩ := finish
        exact ⟨_, Or.inl rfl, Or.inl ⟨⟨.eio, rfl⟩, rfl⟩⟩
      | true =>
        obtain ⟨rfl, chain', deleted⟩ := finishDelete_rules rules
          wired.ruleHelp busy
          (by rw [createDeleteCommand_index _ wired.indexHelp, applyDma_nil])
          finish
        exact ⟨_, Or.inl rfl, Or.inr ⟨rfl, e, chain', entry, busy, deleted⟩⟩
    · refine ⟨(tbl.copySecondIndexEntryToHead iterator []).1.table,
        Or.inr ⟨_, _, rfl⟩, ?_⟩
      cases dma with
      | false =>
        simp only [finishDelete, Bool.not_false, if_true,
          Prod.mk.injEq] at finish
        obtain ⟨rfl, rfl⟩ := finish
        exact Or.inl ⟨⟨.eio, rfl⟩, rfl⟩
      | true =>
        have rules' : RuleTable pdns
            (tbl.copySecondIndexEntryToHead iterator []).1.table chain :=
          rules.relabeled (tbl.indexTable.entries iterator.nextIndex).tblEntry
            iterator.currIndex
        have links : ∀ i, ∃ x,
            (tbl.copySecondIndexEntryToHead iterator []).1.table.entries i =
              { tbl.table.entries i with indxTblEntry := x } := by
          intro i
          simp only [copySecondIndexEntryToHead, IpaTable.setEntry_entries]
          split
          · next same => exact ⟨iterator.currIndex, by rw [same]⟩
          · exact ⟨(tbl.table.entries i).indxTblEntry, rfl⟩
        obtain ⟨x, entryE⟩ := links e
        have busy' : (tbl.copySecondIndexEntryToHead iterator []).1.table.Busy
            (entryInterface pdns) e := by
          refine ⟨busy.1, ?_⟩
          rw [IpaTable.isFilled, entryE]
          exact busy.2
        have untouched : ((tbl.copySecondIndexEntryToHead iterator []).1.applyDma
            (tbl.copySecondIndexEntryToHead iterator
              (tbl.indexTable.createDeleteCommand indexEntryInterface []
                iterator)).2).table =
            (tbl.copySecondIndexEntryToHead iterator []).1.table := by
          rw [copySecond_cmd, applyDma_indexCmd_table _ wired.indexHelp,
            createDeleteCommand_index _ wired.indexHelp, applyDma_nil]
        have links' : TableIterator.mk (tbl.table.entries e).prevIndex e
            (tbl.table.entries e).nextIndex =
          ⟨((tbl.copySecondIndexEntryToHead iterator []).1.table.entries
              e).prevIndex, e,
            ((tbl.copySecondIndexEntryToHead iterator []).1.table.entries
              e).nextIndex⟩ := by
          rw [entryE]
        rw [links'] at finish
        obtain ⟨rfl, chain', deleted⟩ := finishDelete_rules rules'
          wired.ruleHelp busy' untouched finish
        exact Or.inr ⟨rfl, e, chain', entry, busy, deleted⟩

end Ip4TableCache

end VendorModules.IpaNat
