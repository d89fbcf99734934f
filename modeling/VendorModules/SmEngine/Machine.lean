import VendorModules.Lib.Chain

namespace VendorModules.SmEngine

open Lib

/-- `WLAN_SM_ENGINE_STATE_NONE` -/
def stateNone : UInt8 := 255

/-- `WLAN_SM_ENGINE_MAX_STATES` -/
def maxStates : Nat := 200

/-- `struct wlan_sm_state_info`; of the entry and exit callbacks whether they are given. -/
structure StateInfo where
  state : UInt8
  parentState : UInt8
  initialSubstate : UInt8
  hasSubstates : Bool
  wlanSmEntry : Bool
  wlanSmExit : Bool
  deriving DecidableEq, Repr

/-- The array of `num_states` entries. What lies beyond its end is not part of it, and a read
there has no outcome. -/
abbrev StateTable := List StateInfo

/-- The loop of `wlan_sm_validate_state_info`: `state_visited` as the states visited so far. -/
def visitParents (table : StateTable) : Nat → List UInt8 → UInt8 → Option Bool
  | 0, _, _ => none
  | limit + 1, visited, state =>
    if state = stateNone then some true
    else if state ∈ visited then some false
    else do
      let info ← table[state.toNat]?
      if info.parentState = stateNone then
        visitParents table limit (state :: visited) info.parentState
      else
        let parent ← table[info.parentState.toNat]?
        if !parent.hasSubstates then some false
        else visitParents table limit (state :: visited) info.parentState

/-- `wlan_sm_validate_state_info` -/
def validateStateInfo (table : StateTable) (i : Nat) : Option Bool := do
  let info ← table[i]?
  if maxStates ≤ info.state.toNat ∨ info.state.toNat ≠ i then some false
  -- every round visits one more state, so there are no more rounds than this
  else visitParents table (table.length + 1) [] info.state

/-- `struct wlan_sm` -/
structure Sm where
  curState : UInt8
  stateInfo : StateTable
  inStateTransition : Bool
  deriving DecidableEq, Repr

def Sm.numStates (sm : Sm) : Nat := sm.stateInfo.length

/-- `wlan_sm_create` -/
def create (initState : UInt8) (table : StateTable) : Option Sm :=
  if maxStates < table.length then none
  else if (List.range table.length).all fun i => validateStateInfo table i == some true then
    some { curState := initState, stateInfo := table, inStateTransition := false }
  else none

inductive Visit
  | exit (state : UInt8) (called : Bool)
  | entry (state : UInt8) (called : Bool)
  deriving DecidableEq, Repr

/-- The first loop of `wlan_sm_transition_to`. -/
def exitHierarchy (table : StateTable) : Nat → UInt8 → Option (List Visit)
  | limit, curState =>
    if curState = stateNone then some []
    else match limit with
      | 0 => none
      | limit + 1 => do
          let info ← table[curState.toNat]?
          let visits ← exitHierarchy table limit info.parentState
          some (.exit curState info.wlanSmExit :: visits)

/-- The second loop, with the `cur_state` that is left in the machine. -/
def entryHierarchy (table : StateTable) : Nat → UInt8 → UInt8 → Option (UInt8 × List Visit)
  | limit, smCurState, curState =>
    if curState = stateNone then some (smCurState, [])
    else match limit with
      | 0 => none
      | limit + 1 => do
          let info ← table[curState.toNat]?
          let (last, visits) ← entryHierarchy table limit curState info.initialSubstate
          some (last, .entry curState info.wlanSmEntry :: visits)

/-- `wlan_sm_transition_to`. There is no result if it does not return: links that pass more
states than there are go round for ever. -/
def Sm.transitionTo (sm : Sm) (state : UInt8) : Option (Sm × List Visit) :=
  if sm.inStateTransition then some (sm, [])
  else
    let sm := { sm with inStateTransition := true }
    if state = stateNone ∨ maxStates ≤ state.toNat ∨ sm.numStates ≤ state.toNat then
      some (sm, [])
    else do
      let exits ← exitHierarchy sm.stateInfo sm.numStates sm.curState
      let (last, entries) ← entryHierarchy sm.stateInfo sm.numStates sm.curState state
      some ({ sm with curState := last, inStateTransition := false }, exits ++ entries)

/-! ### The links of a table -/

def linkOf (table : StateTable) (link : StateInfo → UInt8) (state : UInt8) :
    Option (Option UInt8) :=
  (table[state.toNat]?).map fun info =>
    if link info = stateNone then none else some (link info)

def parentOf (table : StateTable) : UInt8 → Option (Option UInt8) :=
  linkOf table StateInfo.parentState

def substateOf (table : StateTable) : UInt8 → Option (Option UInt8) :=
  linkOf table StateInfo.initialSubstate

def hierarchy (table : StateTable) (state : UInt8) : List UInt8 :=
  (follow (parentOf table) table.length state).getD []

variable {table : StateTable} {link : StateInfo → UInt8} {state : UInt8}

theorem linkOf_isSome (read : (linkOf table link state).isSome) : state.toNat < table.length := by
  simpa [linkOf] using read

theorem linkOf_of_none {info : StateInfo} (found : table[state.toNat]? = some info)
    (ends : link info = stateNone) : linkOf table link state = some none := by
  simp [linkOf, found, ends]

theorem linkOf_of_some {info : StateInfo} (found : table[state.toNat]? = some info)
    (goes : link info ≠ stateNone) : linkOf table link state = some (some (link info)) := by
  simp [linkOf, found, goes]

theorem follow_linkOf_iff {path : List UInt8} :
    follow (linkOf table link) table.length state = some path ↔
      Chain (linkOf table link) state path :=
  follow_eq_some_iff UInt8.toNat (fun _ _ => UInt8.toNat_inj.mp) fun _ => linkOf_isSome

end VendorModules.SmEngine
