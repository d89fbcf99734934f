import VendorModules.Synx.Accounts

namespace VendorModules.Synx

open Lib

variable {s : State}

/-! ## Operations one after another -/

instance : DecidablePred Activity.Finished
  | .signaling _ => inferInstanceAs (Decidable (_ = _))
  | .merging _ => inferInstanceAs (Decidable False)
  | .undoing _ _ _ => inferInstanceAs (Decidable (_ = _))

def State.Quiet (s : State) : Prop := ∀ activity ∈ s.running, activity.Finished

instance (s : State) : Decidable s.Quiet := inferInstanceAs (Decidable (∀ _ ∈ _, _))

def OneByOne (s : State) : Move → Prop
  | .advance _ => True
  | _ => s.Quiet

instance (s : State) : DecidablePred (OneByOne s)
  | .advance _ => inferInstanceAs (Decidable True)
  | .create _ | .testWait _ _ | .update _ _ | .merge _ _ => inferInstanceAs (Decidable s.Quiet)

def Sequential (s : State) (move : Move) : Prop := Promised s move ∧ OneByOne s move

instance (s : State) : DecidablePred (Sequential s) := fun _ => instDecidableAnd

/-- The notification is not for the target of a failed merge, and if it is the last that a
composite with parents waits for, it brings the status that the composite ends with. -/
structure Note.Faithful (s : State) (note : Note) : Prop where
  due : note.child ≠ none → ¬ s.Unfinished note.idx
  passed : (s.table note.idx).numChild = 1 →
    (s.table note.idx).parents.slots ≠ Parents.none.slots →
    mergedStatus (s.table note.idx).status note.status = note.status

instance (s : State) (note : Note) : Decidable (note.Faithful s) :=
  decidable_of_iff
    ((note.child ≠ none → ¬ s.Unfinished note.idx) ∧
      ((s.table note.idx).numChild = 1 →
        (s.table note.idx).parents.slots ≠ Parents.none.slots →
        mergedStatus (s.table note.idx).status note.status = note.status))
    ⟨fun ⟨due, passed⟩ => ⟨due, passed⟩, fun faithful => ⟨faithful.due, faithful.passed⟩⟩

def Orderly (s : State) (move : Move) : Prop := Sequential s move ∧ Heads s (Note.Faithful s) move

instance (s : State) : DecidablePred (Orderly s) := fun _ => instDecidableAnd

/-! ## The outcome of a composite -/

inductive State.Below (s : State) : Nat → Nat → Prop
  | leaf {pIdx idx : Nat} (member : idx ∈ s.history.members pIdx)
      (plain : s.history.phase idx = .plain) : Below s pIdx idx
  | under {pIdx child idx : Nat} (member : child ∈ s.history.members pIdx)
      (below : Below s child idx) : Below s pIdx idx

def State.sentTo (s : State) (idx : Nat) (id : CoreId) : List Message :=
  s.history.sent.filter fun message =>
    message.handle = (s.table idx).handle ∧ message.core = id

structure State.Outcome (s : State) (pIdx : Nat) : Prop where
  complete : s.Complete pIdx ↔ ∀ idx, s.Below pIdx idx → s.history.given idx ≠ none
  /-- The final status is that of a leaf, and an error as soon as that of one leaf is. -/
  origin : s.Complete pIdx →
    ∃ idx, s.Below pIdx idx ∧ s.history.given idx = some (s.table pIdx).status
  error : s.Complete pIdx → (isError (s.table pIdx).status ↔
    ∃ idx, s.Below pIdx idx ∧ ∃ status, s.history.given idx = some status ∧ isError status)
  success : s.Complete pIdx →
    (∀ idx, s.Below pIdx idx → ∀ status, s.history.given idx = some status →
      status ≤ SYNX_STATE_SIGNALED_MAX) →
    ((s.table pIdx).status = SYNX_STATE_SIGNALED_SUCCESS ↔
      ∀ idx, s.Below pIdx idx → s.history.given idx = some SYNX_STATE_SIGNALED_SUCCESS)
  /-- Every other core that waited gets one message, with the final status. -/
  delivered : ∀ id, id ≠ .apss → s.sentTo pIdx id =
    if s.Complete pIdx ∧ s.history.waited pIdx id = true then
      [⟨id, (s.table pIdx).handle, (s.table pIdx).status⟩]
    else []

end VendorModules.Synx
