import VendorModules.SmEngine.Machine

namespace VendorModules.SmEngine

open Lib

variable {table : StateTable} {state : UInt8} {path : List UInt8}

/-! ### Tables that are accepted -/

theorem chain_of_visitParents {limit : Nat} {visited : List UInt8}
    (accepted : visitParents table limit visited state = some true) (valid : state ≠ stateNone) :
    ∃ path, Chain (parentOf table) state path := by
  induction limit generalizing visited state with
  | zero => cases accepted
  | succ limit ih =>
    rw [visitParents, if_neg valid] at accepted
    split at accepted
    · cases accepted
    obtain ⟨info, found, accepted⟩ := Option.bind_eq_some_iff.mp accepted
    split at accepted
    · rename_i ends
      exact ⟨[state], .last (linkOf_of_none found ends)⟩
    · rename_i goes
      obtain ⟨parent, _, accepted⟩ := Option.bind_eq_some_iff.mp accepted
      split at accepted
      · cases accepted
      · obtain ⟨rest, chain⟩ := ih accepted goes
        exact ⟨state :: rest, .step (linkOf_of_some found goes) chain⟩

/-- The bound on the rounds of the check rejects nothing: a state whose parent links come to an
end and lead by super states only is accepted. -/
theorem visitParents_of_chain (chain : Chain (parentOf table) state path)
    (supers : ∀ above ∈ path.tail, ∃ info, table[above.toNat]? = some info ∧ info.hasSubstates)
    {limit : Nat} (enough : path.length < limit) {visited : List UInt8}
    (fresh : ∀ passed ∈ path, passed ∉ visited) (small : table.length ≤ maxStates) :
    visitParents table limit visited state = some true := by
  induction chain generalizing limit visited with
  | @last state ends =>
    match limit with
    | 0 => cases enough
    | 1 => simp at enough
    | limit + 2 =>
      obtain ⟨info, found, top⟩ := Option.map_eq_some_iff.mp ends
      split_ifs at top with none_above
      have within := (List.getElem?_eq_some_iff.mp found).1
      have real : state ≠ stateNone := by
        rintro rfl
        exact absurd within (by simp [stateNone, maxStates] at small ⊢; omega)
      simp [visitParents, real, fresh state, found, none_above]
  | @step state above rest linked chain ih =>
    match limit with
    | 0 => cases enough
    | limit + 1 =>
      obtain ⟨info, found, goes⟩ := Option.map_eq_some_iff.mp linked
      split_ifs at goes with ends
      cases goes
      have within := (List.getElem?_eq_some_iff.mp found).1
      have real : state ≠ stateNone := by
        rintro rfl
        exact absurd within (by simp [stateNone, maxStates] at small ⊢; omega)
      obtain ⟨parent, above_found, super⟩ := supers _ chain.head_mem
      have once := (Chain.step linked chain).nodup
      have fresh_above : ∀ passed ∈ rest, passed ∉ state :: visited := by
        intro passed later
        simp only [List.mem_cons, not_or]
        constructor
        · rintro rfl
          exact (List.nodup_cons.mp once).1 later
        · exact fresh passed (List.mem_cons_of_mem _ later)
      have rest_accepted := ih
        (fun upper passed => supers upper (List.mem_of_mem_tail passed))
        (Nat.lt_of_succ_lt_succ enough) fresh_above
      simp [visitParents, real, fresh state, found, ends, above_found, super, rest_accepted]

structure Accepted (sm : Sm) : Prop where
  small : sm.numStates ≤ maxStates
  acyclic : ∀ state : UInt8, state.toNat < sm.numStates →
    ∃ path, Chain (parentOf sm.stateInfo) state path

theorem create_accepted {initState : UInt8} {sm : Sm} (created : create initState table = some sm) :
    Accepted sm ∧ sm.curState = initState ∧ sm.stateInfo = table ∧
      sm.inStateTransition = false := by
  unfold create at created
  split_ifs at created with large checked
  cases created
  have accepts (i : Nat) (inside : i < table.length) :
      validateStateInfo table i = some true := by
    have := List.all_eq_true.mp checked i (List.mem_range.mpr inside)
    exact beq_iff_eq.mp this
  have named (i : Nat) (inside : i < table.length) :
      table[i].state.toNat = i ∧
        visitParents table (table.length + 1) [] table[i].state = some true := by
    have accepted := accepts i inside
    simp only [validateStateInfo, List.getElem?_eq_getElem inside, Option.bind_eq_bind,
      Option.bind_some] at accepted
    split at accepted
    · cases accepted
    · rename_i right
      exact ⟨not_not.mp fun other => right (.inr other), accepted⟩
  refine ⟨⟨Nat.le_of_not_lt large, ?_⟩, rfl, rfl, rfl⟩
  intro state inside
  obtain ⟨name, accepted⟩ := named state.toNat inside
  have same : table[state.toNat].state = state := UInt8.toNat_inj.mp name
  rw [same] at accepted
  apply chain_of_visitParents accepted
  rintro rfl
  simp only [Sm.numStates, stateNone, maxStates] at inside large
  simp at inside
  omega

end VendorModules.SmEngine
