import VendorModules.SmEngine.Balanced

namespace VendorModules.SmEngine

open Lib

/-- With an invalid target nothing changes; with a valid one exactly the states of its
hierarchy are entered, every state having been left and entered in turn. -/
def Right (sm : Sm) (target : UInt8) (sm' : Sm) (visits : List Visit) : Prop :=
  if target.toNat < sm.numStates then
    target ∈ hierarchy sm.stateInfo sm'.curState ∧
      ∀ state, alternate state (decide (state ∈ hierarchy sm.stateInfo sm.curState)) visits =
        some (decide (state ∈ hierarchy sm.stateInfo sm'.curState))
  else visits = [] ∧ sm'.curState = sm.curState ∧ sm'.inStateTransition = false

def Served (sm : Sm) : List UInt8 → Prop
  | [] => True
  | target :: rest =>
    ∃ sm' visits, sm.transitionTo target = some (sm', visits) ∧ Right sm target sm' visits ∧
      Served sm' rest

/-- The states that the initial substates lead to from a target are the last of them and all
its ancestors. -/
def EntersHierarchy (table : StateTable) (target : UInt8) : Prop :=
  match follow (substateOf table) table.length target with
  | none => False
  | some path =>
    path ⊆ hierarchy table (path.getLast?.getD target) ∧
      hierarchy table (path.getLast?.getD target) ⊆ path

instance (table : StateTable) (target : UInt8) : Decidable (EntersHierarchy table target) := by
  unfold EntersHierarchy
  split <;> infer_instance

structure Ready (sm : Sm) : Prop where
  accepted : Accepted sm
  valid : sm.curState.toNat < sm.numStates
  idle : sm.inStateTransition = false

variable {sm sm' : Sm} {target : UInt8} {visits : List Visit} {path : List UInt8}

theorem Accepted.chain_hierarchy (accepted : Accepted sm) {state : UInt8}
    (valid : state.toNat < sm.numStates) :
    Chain (parentOf sm.stateInfo) state (hierarchy sm.stateInfo state) := by
  obtain ⟨path, chain⟩ := accepted.acyclic state valid
  have found : hierarchy sm.stateInfo state = path := by
    rw [hierarchy, parentOf, follow_linkOf_iff.mpr chain]
    rfl
  rwa [found]

theorem transitionTo_of_invalid (idle : sm.inStateTransition = false)
    (invalid : sm.numStates ≤ target.toNat) :
    sm.transitionTo target = some ({ sm with inStateTransition := true }, []) := by
  unfold Sm.transitionTo
  rw [if_neg (by simp [idle])]
  exact if_pos (.inr (.inr invalid))

theorem transitionTo_of_valid (small : sm.numStates ≤ maxStates)
    (idle : sm.inStateTransition = false) (valid : target.toNat < sm.numStates) :
    sm.transitionTo target =
      (exitHierarchy sm.stateInfo sm.numStates sm.curState).bind fun exits =>
        (entryHierarchy sm.stateInfo sm.numStates sm.curState target).bind fun entered =>
          some ({ sm with curState := entered.1, inStateTransition := false },
            exits ++ entered.2) := by
  unfold Sm.transitionTo
  rw [if_neg (by simp [idle])]
  have accepted : ¬ (target = stateNone ∨ maxStates ≤ target.toNat ∨
      sm.numStates ≤ target.toNat) := by
    rintro (none | large | outside)
    · exact ne_stateNone small valid none
    · omega
    · omega
  exact if_neg accepted

theorem Ready.transitionTo_of_chain (ready : Ready sm) (valid : target.toNat < sm.numStates)
    (chain : Chain (substateOf sm.stateInfo) target path) :
    sm.transitionTo target =
      some ({ sm with curState := path.getLast chain.ne_nil },
        exitsOf sm.stateInfo (hierarchy sm.stateInfo sm.curState) ++
          entriesOf sm.stateInfo path) := by
  have small := ready.accepted.small
  have left := ready.accepted.chain_hierarchy ready.valid
  have bounded {link : StateInfo → UInt8} {state : UInt8} {path : List UInt8}
      (chain : Chain (linkOf sm.stateInfo link) state path) : path.length ≤ sm.numStates :=
    chain.length_le UInt8.toNat (fun _ _ => UInt8.toNat_inj.mp) fun _ => linkOf_isSome
  rw [transitionTo_of_valid small ready.idle valid,
    exitHierarchy_of_chain small left (bounded left),
    entryHierarchy_of_chain small chain (bounded chain)]
  simp [ready.idle]

theorem Ready.alternate_transitionTo (ready : Ready sm)
    (chain : Chain (substateOf sm.stateInfo) target path) (state : UInt8) :
    alternate state (decide (state ∈ hierarchy sm.stateInfo sm.curState))
        (exitsOf sm.stateInfo (hierarchy sm.stateInfo sm.curState) ++
          entriesOf sm.stateInfo path) =
      some (decide (state ∈ path)) := by
  have left := ready.accepted.chain_hierarchy ready.valid
  rw [alternate_append, alternate_exitsOf left.nodup, Option.bind_some,
    alternate_entriesOf chain.nodup]

theorem Ready.enterHierarchy_iff (ready : Ready sm) (valid : target.toNat < sm.numStates)
    (chain : Chain (substateOf sm.stateInfo) target path)
    (moved : sm.transitionTo target = some (sm', visits)) :
    Right sm target sm' visits ↔ EntersHierarchy sm.stateInfo target := by
  rw [ready.transitionTo_of_chain valid chain] at moved
  cases moved
  have followed : follow (substateOf sm.stateInfo) sm.stateInfo.length target = some path :=
    follow_linkOf_iff.mpr chain
  have last : path.getLast?.getD target = path.getLast chain.ne_nil := by
    rw [List.getLast?_eq_getLast_of_ne_nil chain.ne_nil]
    rfl
  simp only [Right, if_pos valid, EntersHierarchy, followed, last,
    ready.alternate_transitionTo chain, Option.some.injEq, decide_eq_decide]
  constructor
  · intro right
    exact ⟨fun state => (right.2 state).mp, fun state => (right.2 state).mpr⟩
  · intro same
    exact ⟨same.1 chain.head_mem, fun state => ⟨fun inside => same.1 inside,
      fun inside => same.2 inside⟩⟩

theorem Ready.next (ready : Ready sm) (valid : target.toNat < sm.numStates)
    (chain : Chain (substateOf sm.stateInfo) target path)
    (moved : sm.transitionTo target = some (sm', visits)) :
    Ready sm' ∧ sm'.stateInfo = sm.stateInfo := by
  rw [ready.transitionTo_of_chain valid chain] at moved
  cases moved
  have entered := chain.readable _ (List.getLast_mem chain.ne_nil)
  exact ⟨⟨⟨ready.accepted.small, ready.accepted.acyclic⟩, linkOf_isSome entered, ready.idle⟩, rfl⟩

theorem Ready.chain_of_transitionTo (ready : Ready sm) (valid : target.toNat < sm.numStates)
    (moved : sm.transitionTo target = some (sm', visits)) :
    ∃ path, Chain (substateOf sm.stateInfo) target path := by
  have small := ready.accepted.small
  rw [transitionTo_of_valid small ready.idle valid] at moved
  obtain ⟨exits, _, moved⟩ := Option.bind_eq_some_iff.mp moved
  obtain ⟨entered, entries, _⟩ := Option.bind_eq_some_iff.mp moved
  exact chain_of_entryHierarchy (ne_stateNone small valid) entries

theorem chain_of_entersHierarchy {table : StateTable} (enters : EntersHierarchy table target) :
    ∃ path, Chain (substateOf table) target path := by
  unfold EntersHierarchy at enters
  split at enters
  · cases enters
  · rename_i path followed
    exact ⟨path, chain_of_follow followed⟩

theorem Ready.served_iff (ready : Ready sm) (targets : List UInt8) :
    Served sm targets ↔
      ∀ target ∈ targets, target.toNat < sm.numStates ∧ EntersHierarchy sm.stateInfo target := by
  induction targets generalizing sm with
  | nil => simp [Served]
  | cons target rest ih =>
    rw [List.forall_mem_cons]
    constructor
    · rintro ⟨sm', visits, moved, right, served⟩
      by_cases valid : target.toNat < sm.numStates
      · obtain ⟨path, chain⟩ := ready.chain_of_transitionTo valid moved
        obtain ⟨next, same⟩ := ready.next valid chain moved
        have enters := (ready.enterHierarchy_iff valid chain moved).mp right
        have later := (ih next).mp served
        rw [Sm.numStates, same] at later
        exact ⟨⟨valid, enters⟩, later⟩
      · rw [transitionTo_of_invalid ready.idle (Nat.le_of_not_lt valid)] at moved
        cases moved
        simp [Right, valid] at right
    · rintro ⟨⟨valid, enters⟩, later⟩
      obtain ⟨path, chain⟩ := chain_of_entersHierarchy enters
      have moved := ready.transitionTo_of_chain valid chain
      obtain ⟨next, same⟩ := ready.next valid chain moved
      refine ⟨_, _, moved, (ready.enterHierarchy_iff valid chain moved).mpr enters, ?_⟩
      exact (ih next).mpr later

/-- In a machine that was made from a table and has a valid initial state, the calls come to
what they should exactly if every target is valid and enters its whole hierarchy. -/
theorem transitions_served_iff {initState : UInt8} {table : StateTable}
    (created : create initState table = some sm) (valid : initState.toNat < table.length)
    (targets : List UInt8) :
    Served sm targets ↔
      ∀ target ∈ targets, target.toNat < table.length ∧ EntersHierarchy table target := by
  obtain ⟨accepted, current, same, idle⟩ := create_accepted created
  have ready : Ready sm := ⟨accepted, by rwa [current, Sm.numStates, same], idle⟩
  rw [ready.served_iff, Sm.numStates, same]

def nested : StateTable :=
  [⟨0, stateNone, 1, true, true, true⟩, ⟨1, 0, stateNone, false, true, true⟩,
    ⟨2, 0, stateNone, false, true, true⟩, ⟨3, stateNone, stateNone, false, true, true⟩]

theorem nested_served : Served { curState := 3, stateInfo := nested, inStateTransition := false }
    [0, 3, 0] :=
  (@transitions_served_iff _ 3 nested (by decide) (by decide) [0, 3, 0]).mpr
    (by decide +kernel)

/-- After a call with an invalid target the next transition is refused, and a transition to a
substate leaves its super state without an entry. -/
theorem nested_not_served :
    (∃ sm, create 3 nested = some sm ∧ ¬ Served sm [9] ∧ ¬ Served sm [9, 0] ∧
      sm.transitionTo 9 = some ({ sm with inStateTransition := true }, []) ∧
      ({ sm with inStateTransition := true } : Sm).transitionTo 0 =
        some ({ sm with inStateTransition := true }, [])) ∧
    ∃ sm, create 1 nested = some sm ∧ ¬ Served sm [2] ∧
      sm.transitionTo 2 = some ({ sm with curState := 2 },
        [.exit 1 true, .exit 0 true, .entry 2 true]) := by
  have invalid (rest : List UInt8) : ¬ Served
      { curState := 3, stateInfo := nested, inStateTransition := false } (9 :: rest) := by
    rintro ⟨sm', visits, moved, right, -⟩
    have refused :
        Sm.transitionTo { curState := 3, stateInfo := nested, inStateTransition := false } 9 =
          some ({ curState := 3, stateInfo := nested, inStateTransition := true }, []) := by
      decide
    rw [refused] at moved
    cases moved
    rw [Right, if_neg (by decide)] at right
    exact absurd right.2.2 (by decide)
  have unbalanced : ¬ Served
      { curState := 1, stateInfo := nested, inStateTransition := false } [2] := by
    rintro ⟨sm', visits, moved, right, -⟩
    have entered :
        Sm.transitionTo { curState := 1, stateInfo := nested, inStateTransition := false } 2 =
          some ({ curState := 2, stateInfo := nested, inStateTransition := false },
          [.exit 1 true, .exit 0 true, .entry 2 true]) := by
      decide
    rw [entered] at moved
    cases moved
    have valid : (2 : UInt8).toNat < nested.length := by decide
    simp only [Right, Sm.numStates, if_pos valid] at right
    exact absurd (right.2 0) (by decide)
  exact ⟨⟨_, by decide, invalid [], invalid [0], by decide, by decide⟩,
    ⟨_, by decide, unbalanced, by decide⟩⟩

end VendorModules.SmEngine
