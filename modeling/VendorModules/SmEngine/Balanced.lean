import VendorModules.SmEngine.Hierarchy

namespace VendorModules.SmEngine

open Lib

variable {table : StateTable} {state cur : UInt8} {path : List UInt8}

/-! ### What the two loops pass -/

def exitsOf (table : StateTable) (path : List UInt8) : List Visit :=
  path.map fun state => .exit state ((table[state.toNat]?).any StateInfo.wlanSmExit)

def entriesOf (table : StateTable) (path : List UInt8) : List Visit :=
  path.map fun state => .entry state ((table[state.toNat]?).any StateInfo.wlanSmEntry)

theorem exitHierarchy_stateNone (limit : Nat) :
    exitHierarchy table limit stateNone = some [] := by
  unfold exitHierarchy
  rw [if_pos rfl]

theorem entryHierarchy_stateNone (limit : Nat) :
    entryHierarchy table limit cur stateNone = some (cur, []) := by
  unfold entryHierarchy
  rw [if_pos rfl]

theorem exitHierarchy_succ (limit : Nat) (valid : state ≠ stateNone) {info : StateInfo}
    (found : table[state.toNat]? = some info) :
    exitHierarchy table (limit + 1) state =
      (exitHierarchy table limit info.parentState).map (.exit state info.wlanSmExit :: ·) := by
  rw [exitHierarchy, if_neg valid]
  simp only [found, Option.bind_eq_bind, Option.bind_some]
  cases exitHierarchy table limit info.parentState <;> rfl

theorem entryHierarchy_succ (limit : Nat) (valid : state ≠ stateNone) {info : StateInfo}
    (found : table[state.toNat]? = some info) :
    entryHierarchy table (limit + 1) cur state =
      (entryHierarchy table limit state info.initialSubstate).map fun entered =>
        (entered.1, .entry state info.wlanSmEntry :: entered.2) := by
  rw [entryHierarchy, if_neg valid]
  simp only [found, Option.bind_eq_bind, Option.bind_some]
  cases entryHierarchy table limit state info.initialSubstate <;> rfl

theorem ne_stateNone (small : table.length ≤ maxStates) (inside : state.toNat < table.length) :
    state ≠ stateNone := by
  rintro rfl
  have : stateNone.toNat = 255 := rfl
  simp only [maxStates] at small
  omega

theorem exitHierarchy_of_chain (small : table.length ≤ maxStates)
    (chain : Chain (parentOf table) state path) {limit : Nat} (enough : path.length ≤ limit) :
    exitHierarchy table limit state = some (exitsOf table path) := by
  induction chain generalizing limit with
  | @last state ends =>
    obtain ⟨info, found, top⟩ := Option.map_eq_some_iff.mp ends
    split_ifs at top with none_above
    have inside := (List.getElem?_eq_some_iff.mp found).1
    obtain ⟨limit, rfl⟩ := Nat.exists_eq_succ_of_ne_zero (Nat.ne_of_gt enough)
    rw [exitHierarchy_succ limit (ne_stateNone small inside) found, none_above,
      exitHierarchy_stateNone]
    simp [exitsOf, found]
  | @step state above rest linked chain ih =>
    obtain ⟨info, found, goes⟩ := Option.map_eq_some_iff.mp linked
    split_ifs at goes with ends
    cases goes
    have inside := (List.getElem?_eq_some_iff.mp found).1
    obtain ⟨limit, rfl⟩ := Nat.exists_eq_succ_of_ne_zero (n := limit) (by
      rintro rfl
      cases enough)
    rw [exitHierarchy_succ limit (ne_stateNone small inside) found,
      ih (Nat.le_of_succ_le_succ enough)]
    simp [exitsOf, found]

theorem entryHierarchy_of_chain (small : table.length ≤ maxStates)
    (chain : Chain (substateOf table) state path) {limit : Nat} (enough : path.length ≤ limit) :
    entryHierarchy table limit cur state =
      some (path.getLast chain.ne_nil, entriesOf table path) := by
  induction chain generalizing limit cur with
  | @last state ends =>
    obtain ⟨info, found, top⟩ := Option.map_eq_some_iff.mp ends
    split_ifs at top with none_below
    have inside := (List.getElem?_eq_some_iff.mp found).1
    obtain ⟨limit, rfl⟩ := Nat.exists_eq_succ_of_ne_zero (Nat.ne_of_gt enough)
    rw [entryHierarchy_succ limit (ne_stateNone small inside) found, none_below,
      entryHierarchy_stateNone]
    simp [entriesOf, found]
  | @step state below rest linked chain ih =>
    obtain ⟨info, found, goes⟩ := Option.map_eq_some_iff.mp linked
    split_ifs at goes with ends
    cases goes
    have inside := (List.getElem?_eq_some_iff.mp found).1
    obtain ⟨limit, rfl⟩ := Nat.exists_eq_succ_of_ne_zero (n := limit) (by
      rintro rfl
      cases enough)
    rw [entryHierarchy_succ limit (ne_stateNone small inside) found,
      ih (Nat.le_of_succ_le_succ enough)]
    simp [entriesOf, found, List.getLast_cons chain.ne_nil]

theorem chain_of_entryHierarchy {limit : Nat} (valid : state ≠ stateNone) {last : UInt8}
    {visits : List Visit} (returned : entryHierarchy table limit cur state = some (last, visits)) :
    ∃ path, Chain (substateOf table) state path := by
  induction limit generalizing state cur visits with
  | zero => simp [entryHierarchy, valid] at returned
  | succ limit ih =>
    cases found : table[state.toNat]? with
    | none => simp [entryHierarchy, valid, found] at returned
    | some info =>
      rw [entryHierarchy_succ limit valid found] at returned
      obtain ⟨⟨last', entered⟩, entries, same⟩ := Option.map_eq_some_iff.mp returned
      by_cases ends : info.initialSubstate = stateNone
      · exact ⟨[state], .last (linkOf_of_none found ends)⟩
      · cases same
        obtain ⟨rest, chain⟩ := ih ends entries
        exact ⟨state :: rest, .step (linkOf_of_some found ends) chain⟩

/-! ### Entry and exit in turn -/

def alternate (state : UInt8) : Bool → List Visit → Option Bool
  | inside, [] => some inside
  | inside, .exit other _ :: rest =>
    if other = state then if inside then alternate state false rest else none
    else alternate state inside rest
  | inside, .entry other _ :: rest =>
    if other = state then if inside then none else alternate state true rest
    else alternate state inside rest

theorem alternate_append (inside : Bool) (visits visits' : List Visit) :
    alternate state inside (visits ++ visits') =
      (alternate state inside visits).bind (alternate state · visits') := by
  induction visits generalizing inside with
  | nil => rfl
  | cons visit rest ih =>
    cases visit with
    | exit other called =>
      simp only [List.cons_append, alternate]
      split_ifs <;> first | exact ih _ | rfl
    | entry other called =>
      simp only [List.cons_append, alternate]
      split_ifs <;> first | exact ih _ | rfl

theorem alternate_exitsOf_of_not_mem (inside : Bool) (outside : state ∉ path) :
    alternate state inside (exitsOf table path) = some inside := by
  induction path with
  | nil => rfl
  | cons other rest ih =>
    rw [List.mem_cons, not_or] at outside
    have step : exitsOf table (other :: rest) =
      .exit other ((table[other.toNat]?).any StateInfo.wlanSmExit) :: exitsOf table rest := rfl
    rw [step, alternate, if_neg (Ne.symm outside.1), ih outside.2]

theorem alternate_entriesOf_of_not_mem (inside : Bool) (outside : state ∉ path) :
    alternate state inside (entriesOf table path) = some inside := by
  induction path with
  | nil => rfl
  | cons other rest ih =>
    rw [List.mem_cons, not_or] at outside
    have step : entriesOf table (other :: rest) =
      .entry other ((table[other.toNat]?).any StateInfo.wlanSmEntry) :: entriesOf table rest :=
      rfl
    rw [step, alternate, if_neg (Ne.symm outside.1), ih outside.2]

theorem alternate_exitsOf (once : path.Nodup) :
    alternate state (decide (state ∈ path)) (exitsOf table path) = some false := by
  induction path with
  | nil => rfl
  | cons other rest ih =>
    obtain ⟨left, once⟩ := List.nodup_cons.mp once
    have step : exitsOf table (other :: rest) =
      .exit other ((table[other.toNat]?).any StateInfo.wlanSmExit) :: exitsOf table rest := rfl
    rw [step, alternate]
    split
    · rename_i same
      subst same
      simpa using alternate_exitsOf_of_not_mem false left
    · rename_i differ
      have apart : state ≠ other := Ne.symm differ
      rw [show decide (state ∈ other :: rest) = decide (state ∈ rest) by simp [apart]]
      exact ih once

theorem alternate_entriesOf (once : path.Nodup) :
    alternate state false (entriesOf table path) = some (decide (state ∈ path)) := by
  induction path with
  | nil => rfl
  | cons other rest ih =>
    obtain ⟨left, once⟩ := List.nodup_cons.mp once
    have step : entriesOf table (other :: rest) =
      .entry other ((table[other.toNat]?).any StateInfo.wlanSmEntry) :: entriesOf table rest :=
      rfl
    rw [step, alternate]
    split
    · rename_i same
      subst same
      simpa using alternate_entriesOf_of_not_mem true left
    · rename_i differ
      have apart : state ≠ other := Ne.symm differ
      rw [show decide (state ∈ other :: rest) = decide (state ∈ rest) by simp [apart]]
      exact ih once

end VendorModules.SmEngine
