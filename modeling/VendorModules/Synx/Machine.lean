import VendorModules.Lib.Transition
import VendorModules.Synx.Global

namespace VendorModules.Synx

/-! Several cores at work on the table. Every locked section is one step; what an operation
holds between two of them is its own. -/

/-- A call of `synx_global_update_status_core` that is still to be made: by
`synx_global_update_status`, or for a child that has been signaled. -/
structure Note where
  idx : Nat
  status : Nat
  child : Option Nat
  deriving DecidableEq, Repr

/-- Where an operation stands. The notes are the pending part of the recursion, in the order
of the calls. -/
inductive Activity
  | signaling (notes : List Note)
  | merging (merging : Merging)
  | undoing (idxList : List Nat) (pIdx : Nat) (numChild : Nat)

def Activity.Finished : Activity → Prop
  | .signaling notes => notes = []
  | .merging _ => False
  | .undoing _ _ numChild => numChild = 0

inductive Phase
  | plain
  | merging
  | merged
  | failed
  deriving DecidableEq, Repr

structure History where
  phase : Nat → Phase
  /-- The objects linked to a composite. -/
  members : Nat → List Nat
  /-- The members a composite has heard of: by a notification, or at the merge for those
  that were signaled before. -/
  notified : Nat → List Nat
  /-- The status that `synx_global_update_status` gave. -/
  given : Nat → Option Nat
  /-- The cores that asked to be woken while the object was pending. -/
  waited : Nat → CoreId → Bool
  sent : List Message

structure State where
  bitmap : Nat → Bool
  table : Nat → Coredata
  running : List Activity
  history : History

/-- After `synx_gmem_init`. -/
def State.initial : State where
  bitmap := fun idx => idx == 0
  table := fun _ => .zero
  running := []
  history :=
    { phase := fun _ => .plain
      members := fun _ => []
      notified := fun _ => []
      given := fun _ => none
      waited := fun _ _ => false
      sent := [] }

variable {α : Type}

def put (f : Nat → α) (i : Nat) (a : α) : Nat → α := fun j => if j = i then a else f j

@[simp] theorem put_same {f : Nat → α} {i : Nat} {a : α} : put f i a i = a := if_pos rfl

theorem put_other {f : Nat → α} {i j : Nat} {a : α} (differs : j ≠ i) : put f i a j = f j :=
  if_neg differs

/-- An operation may wait for its call (`create`, `testWait`, `update`, `merge`) or go on
to its next locked section. -/
inductive Move
  | create (handle : Nat)
  | testWait (idx : Nat) (id : CoreId)
  | update (idx status : Nat)
  | merge (idxList : List Nat) (pIdx : Nat)
  | advance (k : Nat)

def notesFor (child status : Nat) (hParents : List Nat) : List Note :=
  (hParents.filter (· ≠ 0)).map fun pIdx => ⟨pIdx, status, some child⟩

/-- `synx_global_update_status_core` up to its calls for the parents. -/
def State.signal (s : State) (note : Note) : State × List Note :=
  let signaled := updateStatusLocked (s.table note.idx) note.status
  let history := s.history
  ({ s with
      table := put s.table note.idx signaled.obj
      bitmap := if signaled.clear then put s.bitmap note.idx false else s.bitmap
      history := { history with
        notified := match note.child with
          | some child => put history.notified note.idx (history.notified note.idx ++ [child])
          | none => history.notified
        given := match note.child with
          | some _ => history.given
          | none => put history.given note.idx (some note.status)
        sent := history.sent ++ signaled.messages note.status } },
    notesFor note.idx note.status signaled.hParents)

/-- The locked section of `synx_global_merge` for the next member. -/
def State.link (s : State) (merging : Merging) (idx : Nat) (rest : List Nat) :
    State × Activity :=
  let obj := s.table idx
  let numChild := countMember merging.numChild obj
  let history := s.history
  let pIdx := merging.pIdx
  if hasFreeSlot obj then
    ({ s with
        table := put s.table idx (linkParent obj pIdx)
        history := { history with
          members := put history.members pIdx (history.members pIdx ++ [idx])
          notified := if numChild = merging.numChild then
              put history.notified pIdx (history.notified pIdx ++ [idx])
            else history.notified } },
      .merging { merging with
        linked := merging.linked ++ [idx]
        rest := rest
        numChild := numChild
        parentStatus := statusWith merging.parentStatus obj })
  else
    ({ s with history := { history with phase := put history.phase pIdx .failed } },
      .undoing merging.idxList pIdx numChild)

def State.add (s : State) (merging : Merging) : State :=
  { s with
    table := put s.table merging.pIdx (addChildren (s.table merging.pIdx) merging)
    history := { s.history with phase := put s.history.phase merging.pIdx .merged } }

def Activity.next (s : State) : Activity → Option (State × Activity)
  | .signaling [] => none
  | .signaling (note :: notes) =>
    let (s, more) := s.signal note
    some (s, .signaling (more ++ notes))
  | .merging work =>
    match work.rest with
    | [] => some (s.add work, .signaling [])
    | idx :: rest =>
      if isValidIdx idx then some (s.link work idx rest)
      else some
        ({ s with history := { s.history with
            phase := put s.history.phase work.pIdx .failed } },
          .undoing work.idxList work.pIdx work.numChild)
  | .undoing _ _ 0 => none
  | .undoing idxList pIdx (numChild + 1) =>
    let idx := idxList.getD numChild 0
    some ({ s with table := put s.table idx (unlinkParent (s.table idx) pIdx) },
      .undoing idxList pIdx numChild)

def step (s : State) : Move → Option State
  | .create handle =>
    let idx := handleIndex handle
    if !isValidIdx idx || s.bitmap idx then none
    else
      let s := { s with bitmap := put s.bitmap idx true }
      match initCoredata (s.table idx) handle with
      | none => some s
      | some obj => some { s with table := put s.table idx obj }
  | .testWait idx id =>
    if isValidIdx idx then
      let (obj, status) := testStatusSetWait (s.table idx) id
      some { s with
        table := put s.table idx obj
        history := { s.history with
          waited := if status = SYNX_STATE_ACTIVE then
              put s.history.waited idx fun id' => id' = id || s.history.waited idx id'
            else s.history.waited } }
    else some s
  | .update idx status =>
    if !isValidIdx idx || status ≤ SYNX_STATE_ACTIVE then some s
    else match updateStatusCheck (s.table idx) with
      | .proceed => some { s with running := s.running ++ [.signaling [⟨idx, status, none⟩]] }
      | _ => some s
  | .merge idxList pIdx =>
    if !isValidIdx pIdx || idxList.isEmpty then some s
    else some { s with
      running := s.running ++ [.merging ⟨pIdx, [], idxList, 0, SYNX_STATE_ACTIVE⟩]
      history := { s.history with phase := put s.history.phase pIdx .merging } }
  | .advance k =>
    (s.running[k]?).bind fun activity =>
      (activity.next s).map fun (next, activity) =>
        { next with running := s.running.set k activity }

def State.Created (s : State) (idx : Nat) : Prop := idx ≠ 0 ∧ s.bitmap idx = true

def State.Unfinished (s : State) (idx : Nat) : Prop :=
  s.history.phase idx = .merging ∨ s.history.phase idx = .failed

def State.Published (s : State) (idx : Nat) : Prop := s.Created idx ∧ ¬ s.Unfinished idx

def State.Complete (s : State) (idx : Nat) : Prop :=
  (s.table idx).numChild = 0 ∧ (s.table idx).status ≠ SYNX_STATE_ACTIVE

def Activity.mentions : Activity → List Nat
  | .signaling notes => notes.map Note.idx
  | .merging work => work.pIdx :: work.idxList
  | .undoing idxList pIdx _ => pIdx :: idxList

/-- What `synx_internal_merge` passes for the merged object: a handle that it has made itself
and not shown to anyone. -/
structure State.Fresh (s : State) (pIdx : Nat) : Prop where
  created : s.Created pIdx
  plain : s.history.phase pIdx = .plain
  unlinked : (s.table pIdx).parents.slots = Parents.none.slots
  unmentioned : ∀ activity ∈ s.running, pIdx ∉ activity.mentions
  unawaited : ∀ id ∈ CoreId.all, s.history.waited pIdx id = false

/-- What the callers promise: handles are of objects they have been given, and the target of
a merge is a new one. -/
def Promised (s : State) : Move → Prop
  | .create _ => True
  | .testWait idx _ => ¬ s.Unfinished idx
  | .update idx _ => ¬ s.Unfinished idx
  | .merge idxList pIdx => s.Fresh pIdx ∧ pIdx ∉ idxList ∧ ∀ idx ∈ idxList, s.Published idx
  | .advance _ => True

instance (s : State) (idx : Nat) : Decidable (s.Created idx) := instDecidableAnd

instance (s : State) (idx : Nat) : Decidable (s.Unfinished idx) := instDecidableOr

instance (s : State) (idx : Nat) : Decidable (s.Published idx) := instDecidableAnd

instance (s : State) : DecidablePred s.Complete := fun _ => instDecidableAnd

instance (s : State) (pIdx : Nat) : Decidable (s.Fresh pIdx) :=
  decidable_of_iff
    (s.Created pIdx ∧ s.history.phase pIdx = .plain ∧
      (s.table pIdx).parents.slots = Parents.none.slots ∧
      (∀ activity ∈ s.running, pIdx ∉ activity.mentions) ∧
      ∀ id ∈ CoreId.all, s.history.waited pIdx id = false)
    ⟨fun ⟨created, plain, unlinked, unmentioned, unawaited⟩ =>
        ⟨created, plain, unlinked, unmentioned, unawaited⟩,
      fun fresh => ⟨fresh.created, fresh.plain, fresh.unlinked, fresh.unmentioned,
        fresh.unawaited⟩⟩

instance (s : State) : DecidablePred (Promised s)
  | .create _ => inferInstanceAs (Decidable True)
  | .testWait _ _ => inferInstanceAs (Decidable (¬ _))
  | .update _ _ => inferInstanceAs (Decidable (¬ _))
  | .merge _ _ => inferInstanceAs (Decidable (_ ∧ _ ∧ _))
  | .advance _ => inferInstanceAs (Decidable True)

def State.inFlight (s : State) (pIdx child : Nat) : Nat :=
  (s.running.map fun
    | .signaling notes => notes.countP fun note => note.idx = pIdx ∧ note.child = some child
    | _ => 0).sum

end VendorModules.Synx
