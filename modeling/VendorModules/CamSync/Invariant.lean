import VendorModules.Lib.Tally
import VendorModules.Lib.Workers
import VendorModules.CamSync.Sections

namespace VendorModules.CamSync

open Function Lib SyncTableRow

variable {s : State}

/-! ## Links and what is under way along them -/

def State.links (s : State) (group member : Nat) : Nat :=
  if s.history.ident (s.history.rowOf member) = member then
    (s.table (s.history.rowOf member)).parentsList.countP (·.group = group)
  else 0

/-- What a group is still to hear of a member: the visits that a call holds, and the links
that the member's signal has not taken yet. -/
def State.flight (s : State) (group member : Nat) : Nat :=
  s.visits group member +
    if (s.history.signaled member).isSome then s.links group member else 0

def SyncParentInfo.Sound (s : State) (parent : SyncParentInfo) : Prop :=
  0 < parent.syncId ∧ parent.group < s.history.next ∧
    s.history.rowOf parent.group = parent.syncId

def State.Reserved (s : State) (idx : Nat) : Prop :=
  0 < idx ∧ s.bitmap idx = true ∧ ¬ s.Live idx

structure State.Merges (s : State) (idx : Nat) (linked rest : List Nat) : Prop where
  live : s.Live idx
  group : (s.table idx).type = .group
  locked : s.locked idx = true
  members : (s.history.members (s.history.ident idx)).length = linked.length
  bound : linked.length + rest.length ≤ CAM_SYNC_MAX_OBJS
  nonempty : linked ++ rest ≠ []

def Activity.target : Activity → Option Nat
  | .creating idx _ | .locking idx _ | .merging idx _ _ | .destroying idx _ _ => some idx
  | _ => none

def Activity.Sound (s : State) : Activity → Prop
  | .creating idx _ => s.Reserved idx
  | .checking syncObjs rest => 1 < syncObjs.length ∧ syncObjs.Nodup ∧
      ∀ idx ∈ syncObjs, idx ∈ rest ∨ idx < CAM_SYNC_MAX_OBJS
  | .locking idx syncObjs => s.Reserved idx ∧ syncObjs ≠ [] ∧
      syncObjs.length ≤ CAM_SYNC_MAX_OBJS
  | .merging idx linked rest => s.Merges idx linked rest
  | .undoing _ _ => False
  | .signaling _ obj status _ => s.history.signaled obj = some status
  | .visiting child status _ parents => s.history.signaled child = some status ∧
      ∀ parent ∈ parents, parent.Sound s
  | .destroying idx _ _ => s.Reserved idx
  | .returned => True

def State.Pausing (s : State) (idx : Nat) : Prop :=
  ∃ status eventCause, .signaling idx (s.history.ident idx) status eventCause ∈ s.running

/-! ## What the rows and the calls keep -/

structure State.Inv (s : State) : Prop where
  zero : ¬ s.Live 0
  bit : ∀ idx, s.Live idx → s.bitmap idx = true
  placed : ∀ idx, s.Live idx → s.history.rowOf (s.history.ident idx) = idx ∧
    s.history.ident idx < s.history.next
  bare : ∀ idx, ¬ s.Live idx → (s.table idx).parentsList = []
  entries : ∀ idx, ∀ parent ∈ (s.table idx).parentsList, parent.Sound s
  unborn : ∀ obj, s.history.next ≤ obj → s.history.signaled obj = none ∧
    s.history.members obj = [] ∧ s.history.notified obj = []
  born : ∀ group, ∀ member ∈ s.history.members group, member < s.history.next
  known : ∀ obj state, s.history.signaled obj = some state → state.Signaled
  indv : ∀ idx, s.Live idx → (s.table idx).type = .indv →
    (s.table idx).state = (s.history.signaled (s.history.ident idx)).getD .active ∧
      s.history.members (s.history.ident idx) = []
  group : ∀ idx, s.Live idx → (s.table idx).type = .group →
    (s.table idx).parentsList = [] ∧ s.history.signaled (s.history.ident idx) = none
  linked : ∀ idx, s.Live idx → ∀ member, s.history.signaled member = none →
    s.links (s.history.ident idx) member =
      (s.history.members (s.history.ident idx)).count member
  tally : ∀ idx, s.Live idx →
    Tally (s.history.members (s.history.ident idx)) (s.history.notified (s.history.ident idx))
      (s.flight (s.history.ident idx)) fun member => (s.history.signaled member).isSome
  counted : ∀ idx, s.Live idx →
    (s.table idx).remaining + (s.history.notified (s.history.ident idx)).length =
      (s.history.members (s.history.ident idx)).length
  few : ∀ idx, s.Live idx →
    (s.history.members (s.history.ident idx)).length ≤ CAM_SYNC_MAX_OBJS
  blamed : ∀ idx, s.Live idx → (s.table idx).type = .group → (s.table idx).state ≠ .active →
    ∃ member ∈ s.history.notified (s.history.ident idx),
      s.history.signaled member = some (s.table idx).state
  spared : ∀ idx, s.Live idx →
    (s.table idx).state = .active ∨ (s.table idx).state = .signaledSuccess →
    ∀ member ∈ s.history.notified (s.history.ident idx),
      s.history.signaled member = some .signaledSuccess
  settled : ∀ idx, s.Live idx → (s.table idx).type = .group → s.locked idx = false →
    (s.table idx).remaining = 0 → (s.table idx).state ≠ .active
  pausing : ∀ idx, s.Live idx → (s.history.signaled (s.history.ident idx)).isSome →
    (s.table idx).parentsList ≠ [] → s.Pausing idx
  sound : ∀ activity ∈ s.running, activity.Sound s
  targets : (s.running.filterMap Activity.target).Nodup

/-! ## Steps that the groups do not see -/

def SyncTableRow.forget (row : SyncTableRow) : SyncTableRow :=
  { row with
    childrenList := []
    callbackList := []
    userPayloadList := []
    refCnt := 0
    synxObj := false }

theorem same_of_forget {row row' : SyncTableRow} (same : row.forget = row'.forget) :
    row.type = row'.type ∧ row.state = row'.state ∧ row.remaining = row'.remaining ∧
      row.parentsList = row'.parentsList := by
  simp only [SyncTableRow.forget, SyncTableRow.mk.injEq] at same
  exact ⟨same.1, same.2.2.2.1, same.2.2.2.2.1, same.2.1⟩

def State.forget (s : State) : State :=
  { s with
    table := fun idx => (s.table idx).forget
    history := { s.history with
      ended := fun _ => none
      registrations := 0
      registered := fun _ => 0
      delivered := []
      dropped := [] } }

theorem sound_forget {activity : Activity} : activity.Sound s.forget ↔ activity.Sound s := by
  cases activity with
  | merging idx linked rest =>
    constructor <;>
      exact fun merges => ⟨merges.live, merges.group, merges.locked, merges.members,
        merges.bound, merges.nonempty⟩
  | creating idx synxObj => exact Iff.rfl
  | checking syncObjs rest => exact Iff.rfl
  | locking idx syncObjs => exact Iff.rfl
  | undoing idx linked => exact Iff.rfl
  | signaling idx obj status eventCause => exact Iff.rfl
  | visiting child status eventCause parents => exact Iff.rfl
  | destroying idx children parents => exact Iff.rfl
  | returned => exact Iff.rfl

theorem State.Inv.of_forget {s' : State} (inv : s.Inv) (same : s'.forget = s.forget) : s'.Inv := by
  have kept : s.forget.Inv :=
    ⟨inv.zero, inv.bit, inv.placed, inv.bare, inv.entries, inv.unborn, inv.born, inv.known,
      inv.indv, inv.group, inv.linked, inv.tally, inv.counted, inv.few, inv.blamed, inv.spared,
      inv.settled, inv.pausing,
      fun activity running => sound_forget.mpr (inv.sound activity running), inv.targets⟩
  rw [← same] at kept
  exact ⟨kept.zero, kept.bit, kept.placed, kept.bare, kept.entries, kept.unborn, kept.born,
    kept.known, kept.indv, kept.group, kept.linked, kept.tally, kept.counted, kept.few,
    kept.blamed, kept.spared, kept.settled, kept.pausing,
    fun activity running => sound_forget.mp (kept.sound activity running), kept.targets⟩

theorem update_field {α : Type} (field : SyncTableRow → α) {table : Nat → SyncTableRow}
    {idx : Nat} {row : SyncTableRow} (same : field row = field (table idx)) (i : Nat) :
    field (update table idx row i) = field (table i) := by
  by_cases here : i = idx
  · rw [here, update_self, same]
  · rw [update_of_ne here]

theorem update_update_field {α : Type} (field : SyncTableRow → α) {table : Nat → SyncTableRow}
    {idx idx' : Nat} {row row' : SyncTableRow} (same : field row = field (table idx))
    (same' : field row' = field (table idx')) (i : Nat) :
    field (update (update table idx row) idx' row' i) = field (table i) := by
  by_cases here : i = idx'
  · rw [here, update_self, same']
  · rw [update_of_ne here]
    exact update_field field same i

theorem forget_setRow {idx : Nat} {row : SyncTableRow}
    (same : row.forget = (s.table idx).forget) : (s.setRow idx row).forget = s.forget := by
  have rows : (fun i => (update s.table idx row i).forget) = fun i => (s.table i).forget :=
    funext (update_field SyncTableRow.forget same)
  simp only [State.forget, State.setRow, rows]

end VendorModules.CamSync
