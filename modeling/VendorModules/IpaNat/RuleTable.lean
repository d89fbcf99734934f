import VendorModules.IpaNat.AddRule

namespace VendorModules.IpaNat

open VendorModules.Lib

/-! The invariant of the rule table on its own. A record stays enabled after the
deletion of its rule only where it heads a chain that is still in use. -/

def IpaTable.Live (table : IpaTable NatRule) (i : Nat) : Prop :=
  i < table.totTblEnts ∧ (table.entries i).enable = true ∧
    (table.entries i).protocol ≠ natInvalidProtocol

instance (table : IpaTable NatRule) (i : Nat) : Decidable (table.Live i) :=
  inferInstanceAs (Decidable (_ ∧ _ ∧ _))

structure RuleTable (pdns : Pdns) (table : IpaTable NatRule)
    (chain : Nat → List Nat) : Prop where
  shaped : table.Shaped (entryInterface pdns) chain
  dead : ∀ i, table.Busy (entryInterface pdns) i →
    (table.entries i).protocol = natInvalidProtocol →
      i < table.tableEntries ∧ (table.entries i).nextIndex ≠ 0

/-- `rule'` is `rule` but for its links. -/
def NatRule.Relinked (rule rule' : NatRule) : Prop :=
  ∃ next prev, rule' = { rule with nextIndex := next, prevIndex := prev }

theorem NatRule.Relinked.refl (rule : NatRule) : rule.Relinked rule :=
  ⟨rule.nextIndex, rule.prevIndex, rfl⟩

theorem NatRule.Relinked.trans {rule rule' rule'' : NatRule}
    (first : rule.Relinked rule') (second : rule'.Relinked rule'') :
    rule.Relinked rule'' := by
  obtain ⟨next, prev, rfl⟩ := first
  obtain ⟨next', prev', rfl⟩ := second
  exact ⟨next', prev', rfl⟩

theorem NatRule.relinked_next (rule : NatRule) (next : Nat) :
    rule.Relinked { rule with nextIndex := next } := ⟨next, rule.prevIndex, rfl⟩

theorem NatRule.relinked_prev (rule : NatRule) (prev : Nat) :
    rule.Relinked { rule with prevIndex := prev } := ⟨rule.nextIndex, prev, rfl⟩

theorem IpaTable.Live.busy {pdns : Pdns} {table : IpaTable NatRule} {i : Nat}
    (live : table.Live i) : table.Busy (entryInterface pdns) i :=
  ⟨live.1, live.2.1⟩

namespace RuleTable

variable {pdns pdns' : Pdns} {table table' : IpaTable NatRule}
  {chain : Nat → List Nat}

theorem anyPdns (rules : RuleTable pdns table chain) :
    RuleTable pdns' table chain := by
  have filled : ∀ pdns, table.isFilled (entryInterface pdns) =
      fun i => (table.entries i).enable := fun _ => rfl
  have next : ∀ pdns, table.nextIndex (entryInterface pdns) =
      fun i => (table.entries i).nextIndex := fun _ => rfl
  have prev : ∀ pdns, table.prevIndex (entryInterface pdns) =
      fun i => (table.entries i).prevIndex := fun _ => rfl
  have busy : table.Busy (entryInterface pdns') = table.Busy (entryInterface pdns) := by
    funext i
    rw [IpaTable.Busy, IpaTable.Busy, filled, filled]
  constructor
  · constructor
    · rw [next, prev, busy, ← next pdns, ← prev pdns]
      exact rules.shaped.buckets
    · rw [filled, next, prev, ← filled pdns, ← next pdns, ← prev pdns]
      exact rules.shaped.vacant
    · rw [filled, ← filled pdns]
      exact rules.shaped.tblCnt
    · rw [filled, ← filled pdns]
      exact rules.shaped.expnCnt
  · rw [busy]
    exact rules.dead

theorem blank (pdns : Pdns) {table : IpaTable NatRule}
    (entries : ∀ i, i < table.totTblEnts → table.entries i = NatRule.blank)
    (tblCnt : table.curTblCnt = 0) (expnCnt : table.curExpnTblCnt = 0) :
    RuleTable pdns table (fun _ => []) where
  shaped := IpaTable.Shaped.blank
    (fun i inside => congrArg NatRule.enable (entries i inside))
    (fun i inside => congrArg NatRule.nextIndex (entries i inside))
    (fun i inside => congrArg NatRule.prevIndex
      (entries i (inside.trans table.tableEntries_lt_totTblEnts)))
    tblCnt expnCnt
  dead := by
    rintro i ⟨inside, filled⟩ -
    simp [IpaTable.isFilled, entryInterface, entries i inside, NatRule.blank]
      at filled

theorem not_live_blank {i : Nat} (entry : table.entries i = NatRule.blank) :
    ¬table.Live i := by
  rintro ⟨-, enabled, -⟩
  rw [entry] at enabled
  cases enabled

/-! ### Adding -/

theorem kept (rules : RuleTable pdns table chain)
    (kept : table.Kept (entryInterface pdns) table') :
    RuleTable pdns table' chain ∧
      (∀ i, table.Live i → table'.entries i = table.entries i) ∧
      ∀ i, table'.Live i ↔ table.Live i := by
  have filledEq : ∀ i, table.isFilled (entryInterface pdns) i = true →
      table'.entries i = table.entries i := by
    intro i filled
    rcases kept.entries i with equal | ⟨free, -⟩
    · exact equal
    · rw [filled] at free
      cases free
  have filledEq' : ∀ i, table'.isFilled (entryInterface pdns) i = true →
      table'.entries i = table.entries i := by
    intro i filled
    rcases kept.entries i with equal | ⟨-, blank⟩
    · exact equal
    · rw [IpaTable.isFilled, blank] at filled
      cases filled
  refine ⟨⟨kept.shaped (entryInterface_lawful pdns) rules.shaped, ?_⟩,
    fun i live => filledEq i live.2.1, fun i => ⟨?_, ?_⟩⟩
  · rintro i ⟨inside, filled⟩ protocol
    have equal := filledEq' i filled
    rw [equal] at protocol ⊢
    rw [kept.same.tableEntries]
    refine rules.dead i ⟨kept.same.totTblEnts ▸ inside, ?_⟩ protocol
    rwa [IpaTable.isFilled, ← equal]
  · rintro ⟨inside, enabled, protocol⟩
    have equal := filledEq' i enabled
    rw [equal] at enabled protocol
    exact ⟨kept.same.totTblEnts ▸ inside, enabled, protocol⟩
  · rintro ⟨inside, enabled, protocol⟩
    have equal := filledEq i enabled
    rw [← equal] at enabled protocol
    exact ⟨kept.same.totTblEnts.symm ▸ inside, enabled, protocol⟩

theorem added (rules : RuleTable pdns table chain) {clntRule : NatIpv4Rule}
    {b e indx : Nat} (bucketLt : b < table.tableEntries)
    (valid : clntRule.protocol ≠ natInvalidProtocol)
    (claimable : table.Claimable (entryInterface pdns) chain b e)
    (added : RuleAdded pdns clntRule table table' e ((chain b).getLastD 0) indx) :
    RuleTable pdns table' (Function.update chain b (chain b ++ [e])) ∧
      (table'.entries e =
        insertedRule pdns (table.entries e) clntRule ((chain b).getLastD 0) indx) ∧
      (∀ i, i ≠ e → (table.entries i).Relinked (table'.entries i)) ∧
      (∀ i, i ≠ e →
        (table'.entries i).indxTblEntry = (table.entries i).indxTblEntry) ∧
      ∀ i, table'.Live i ↔ table.Live i ∨ i = e := by
  have appended := added.appended rules.shaped claimable.inside claimable.free
  have entryNew : table'.entries e =
      insertedRule pdns (table.entries e) clntRule ((chain b).getLastD 0) indx := by
    rw [added.entries, if_pos rfl]
  have entryOld : ∀ i, i ≠ e → table'.entries i = table.entries i ∨
      table'.entries i = { table.entries i with nextIndex := e } := by
    intro i different
    rw [added.entries, if_neg different]
    split
    · exact Or.inr rfl
    · exact Or.inl rfl
  refine ⟨⟨rules.shaped.claim bucketLt claimable appended, ?_⟩, entryNew, ?_, ?_, ?_⟩
  · rintro i ⟨inside, filled⟩ protocol
    by_cases atE : i = e
    · subst atE
      rw [entryNew] at protocol
      exact absurd protocol valid
    · rw [added.same.tableEntries]
      rw [added.same.totTblEnts] at inside
      rcases entryOld i atE with equal | linked
      · rw [equal] at protocol ⊢
        refine rules.dead i ⟨inside, ?_⟩ protocol
        rwa [IpaTable.isFilled, ← equal]
      · rw [linked] at protocol ⊢
        rw [IpaTable.isFilled, linked] at filled
        exact ⟨(rules.dead i ⟨inside, filled⟩ protocol).1, claimable.nonzero⟩
  · intro i different
    rcases entryOld i different with equal | linked
    · rw [equal]
      exact NatRule.Relinked.refl _
    · rw [linked]
      exact NatRule.relinked_next _ _
  · intro i different
    rcases entryOld i different with equal | linked
    · rw [equal]
    · rw [linked]
  · intro i
    by_cases atE : i = e
    · subst atE
      simp only [or_true, iff_true]
      refine ⟨added.same.totTblEnts.symm ▸ claimable.inside, ?_, ?_⟩
      · rw [entryNew]
        rfl
      · rw [entryNew]
        exact valid
    · simp only [IpaTable.Live, added.same.totTblEnts, atE, or_false]
      rcases entryOld i atE with equal | linked
      · rw [equal]
      · rw [linked]

/-! ### Rewriting cross references -/

theorem relabeled (rules : RuleTable pdns table chain) (k indx : Nat) :
    RuleTable pdns
      (table.setEntry k { table.entries k with indxTblEntry := indx }) chain := by
  have entries : ∀ i, ∃ x, (table.setEntry k
      { table.entries k with indxTblEntry := indx }).entries i =
        { table.entries i with indxTblEntry := x } := by
    intro i
    rw [IpaTable.setEntry_entries]
    by_cases same : i = k
    · rw [if_pos same, same]
      exact ⟨indx, rfl⟩
    · rw [if_neg same]
      exact ⟨(table.entries i).indxTblEntry, rfl⟩
  refine ⟨rules.shaped.congr ⟨rfl, rfl, rfl, rfl⟩ ?_ ?_ ?_ rfl rfl, ?_⟩
  · intro i _
    obtain ⟨x, entry⟩ := entries i
    simp only [IpaTable.isFilled, entryInterface, entry]
  · intro i _
    obtain ⟨x, entry⟩ := entries i
    simp only [IpaTable.nextIndex, entryInterface, entry]
  · intro i _
    obtain ⟨x, entry⟩ := entries i
    simp only [IpaTable.prevIndex, entryInterface, entry]
  · rintro i ⟨inside, filled⟩ protocol
    obtain ⟨x, entry⟩ := entries i
    simp only [IpaTable.isFilled, entryInterface, entry] at filled protocol ⊢
    exact rules.dead i ⟨inside, filled⟩ protocol

end RuleTable

end VendorModules.IpaNat
