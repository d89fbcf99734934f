import VendorModules.Synx.Machine

namespace VendorModules.Synx

variable {s : State}

/-! ## Notes that come on time -/

/-- The section finds the object as the check of `synx_global_update_status` saw it, and a
notification comes after the end of the merge into the parent. -/
def Note.Due (s : State) (note : Note) : Prop :=
  match note.child with
  | none => updateStatusCheck (s.table note.idx) = .proceed
  | some _ => ¬ s.Unfinished note.idx

instance (s : State) (note : Note) : Decidable (note.Due s) := by
  unfold Note.Due
  split <;> infer_instance

def Activity.head : Activity → Option Note
  | .signaling (note :: _) => some note
  | _ => none

def Heads (s : State) (good : Note → Prop) : Move → Prop
  | .advance k => ∀ note ∈ (s.running[k]?).bind Activity.head, good note
  | _ => True

instance (s : State) (good : Note → Prop) [DecidablePred good] : DecidablePred (Heads s good)
  | .advance _ => inferInstanceAs (Decidable (∀ note ∈ _, _))
  | .create _ | .testWait _ _ | .update _ _ | .merge _ _ => inferInstanceAs (Decidable True)

def Timely (s : State) (move : Move) : Prop := Promised s move ∧ Heads s (Note.Due s) move

instance (s : State) : DecidablePred (Timely s) := fun _ => instDecidableAnd

/-! ## What a step does -/

theorem put_self {α : Type} (f : Nat → α) (i : Nat) : put f i (f i) = f := by
  funext j
  by_cases same : j = i
  · rw [same, put_same]
  · rw [put_other same]

theorem testStatusSetWait_complete {idx : Nat} {id : CoreId} (complete : s.Complete idx) :
    testStatusSetWait (s.table idx) id = (s.table idx, (s.table idx).status) := by
  refine if_neg fun wait => ?_
  rcases wait with active | children
  · exact complete.2 active
  · exact children complete.1

theorem testStatusSetWait_pending {idx : Nat} {id : CoreId} (pending : ¬ s.Complete idx) :
    testStatusSetWait (s.table idx) id =
      ({ s.table idx with waiters := fun id' => id' = id || (s.table idx).waiters id' },
        SYNX_STATE_ACTIVE) := by
  refine if_pos ?_
  by_cases active : (s.table idx).status = SYNX_STATE_ACTIVE
  · exact .inl active
  · exact .inr fun none => pending ⟨none, active⟩

variable {good : Note → Prop}

inductive Change (s : State) (good : Note → Prop) : State → Prop
  | stay : Change s good s
  | create {idx handle : Nat} {obj : Coredata} (valid : idx < SYNX_GLOBAL_MAX_OBJS)
      (index : handleIndex handle = idx) (free : s.bitmap idx = false)
      (made : initCoredata (s.table idx) handle = some obj) :
      Change s good { s with bitmap := put s.bitmap idx true, table := put s.table idx obj }
  | refuse {idx handle : Nat} (valid : idx < SYNX_GLOBAL_MAX_OBJS)
      (free : s.bitmap idx = false) (refused : initCoredata (s.table idx) handle = none) :
      Change s good { s with bitmap := put s.bitmap idx true }
  | wait {idx : Nat} (id : CoreId) (shown : ¬ s.Unfinished idx) (pending : ¬ s.Complete idx) :
      Change s good { s with
        table := put s.table idx
          { s.table idx with waiters := fun id' => id' = id || (s.table idx).waiters id' }
        history := { s.history with
          waited := put s.history.waited idx fun id' =>
            id' = id || s.history.waited idx id' } }
  | update {idx status : Nat} (signals : SYNX_STATE_ACTIVE < status)
      (shown : ¬ s.Unfinished idx) (check : updateStatusCheck (s.table idx) = .proceed) :
      Change s good { s with running := s.running ++ [.signaling [⟨idx, status, none⟩]] }
  | merge {idxList : List Nat} {pIdx : Nat} (fresh : s.Fresh pIdx) (nonempty : idxList ≠ [])
      (other : pIdx ∉ idxList) (published : ∀ idx ∈ idxList, s.Published idx) :
      Change s good { s with
        running := s.running ++ [.merging ⟨pIdx, [], idxList, 0, SYNX_STATE_ACTIVE⟩]
        history := { s.history with phase := put s.history.phase pIdx .merging } }
  | signal {k : Nat} {note : Note} {notes : List Note}
      (here : s.running[k]? = some (.signaling (note :: notes))) (due : good note) :
      Change s good { (s.signal note).1 with
        running := s.running.set k (.signaling ((s.signal note).2 ++ notes)) }
  | link {k idx : Nat} {work : Merging} {rest : List Nat}
      (here : s.running[k]? = some (.merging work)) (next : work.rest = idx :: rest)
      (free : hasFreeSlot (s.table idx) = true) :
      Change s good { (s.link work idx rest).1 with
        running := s.running.set k (s.link work idx rest).2 }
  | fail {k : Nat} {work : Merging} (numChild : Nat)
      (here : s.running[k]? = some (.merging work)) :
      Change s good { s with
        running := s.running.set k (.undoing work.idxList work.pIdx numChild)
        history := { s.history with phase := put s.history.phase work.pIdx .failed } }
  | add {k : Nat} {work : Merging} (here : s.running[k]? = some (.merging work))
      (last : work.rest = []) :
      Change s good { s.add work with running := s.running.set k (.signaling []) }
  | unlink {k pIdx numChild : Nat} {idxList : List Nat} (idx : Nat)
      (here : s.running[k]? = some (.undoing idxList pIdx (numChild + 1))) :
      Change s good { s with
        table := put s.table idx (unlinkParent (s.table idx) pIdx)
        running := s.running.set k (.undoing idxList pIdx numChild) }

theorem Change.mono {good' : Note → Prop} {s' : State} (change : Change s good s')
    (wider : ∀ note, good note → good' note) : Change s good' s' := by
  cases change with
  | stay => exact .stay
  | create valid index free made => exact .create valid index free made
  | refuse valid free refused => exact .refuse valid free refused
  | wait id shown pending => exact .wait id shown pending
  | update signals shown check => exact .update signals shown check
  | merge fresh nonempty other published => exact .merge fresh nonempty other published
  | signal here due => exact .signal here (wider _ due)
  | link here next free => exact .link here next free
  | fail numChild here => exact .fail numChild here
  | add here last => exact .add here last
  | unlink idx here => exact .unlink idx here

theorem change_of_next {k : Nat} {activity activity' : Activity} {next : State}
    (here : s.running[k]? = some activity) (due : ∀ note ∈ activity.head, good note)
    (taken : activity.next s = some (next, activity')) :
    Change s good { next with running := s.running.set k activity' } := by
  cases activity with
  | signaling notes =>
    cases notes with
    | nil => cases taken
    | cons note notes =>
      cases taken
      exact .signal here (due note rfl)
  | merging work =>
    cases rest : work.rest with
    | nil =>
      simp only [Activity.next, rest, Option.some.injEq, Prod.mk.injEq] at taken
      obtain ⟨rfl, rfl⟩ := taken
      exact .add here rest
    | cons idx rest' =>
      simp only [Activity.next, rest] at taken
      split at taken
      · by_cases free : hasFreeSlot (s.table idx) = true
        · have linked := Option.some.inj taken
          obtain ⟨rfl, rfl⟩ := Prod.mk.inj (linked.symm.trans rfl)
          exact .link here rest free
        · simp only [State.link, free, Bool.false_eq_true, if_false, Option.some.injEq,
            Prod.mk.injEq] at taken
          obtain ⟨rfl, rfl⟩ := taken
          exact .fail _ here
      · simp only [Option.some.injEq, Prod.mk.injEq] at taken
        obtain ⟨rfl, rfl⟩ := taken
        exact .fail _ here
  | undoing idxList pIdx numChild =>
    cases numChild with
    | zero => cases taken
    | succ numChild =>
      cases taken
      exact .unlink _ here

theorem change_of_step {move : Move} {s' : State} (promised : Promised s move)
    (heads : Heads s good move) (taken : step s move = some s') : Change s good s' := by
  cases move with
  | create handle =>
    simp only [step] at taken
    split at taken
    · cases taken
    · rename_i may
      simp only [isValidIdx, Bool.or_eq_true, Bool.not_eq_true', decide_eq_false_iff_not,
        not_or, Decidable.not_not, Bool.not_eq_true] at may
      split at taken
      · cases taken
        exact .refuse may.1 may.2 ‹_›
      · cases taken
        exact .create may.1 rfl may.2 ‹_›
  | testWait idx id =>
    simp only [step] at taken
    split at taken
    · by_cases pending : s.Complete idx
      · simp only [testStatusSetWait_complete pending, pending.2, if_false, put_self,
          Option.some.injEq] at taken
        exact taken ▸ .stay
      · simp only [testStatusSetWait_pending pending, if_true, Option.some.injEq] at taken
        exact taken ▸ .wait id promised pending
    · cases taken
      exact .stay
  | update idx status =>
    simp only [step] at taken
    split at taken
    · cases taken
      exact .stay
    · rename_i signals
      simp only [Bool.or_eq_true, Bool.not_eq_true', decide_eq_true_eq, not_or,
        Nat.not_le] at signals
      split at taken
      · cases taken
        exact .update signals.2 promised ‹_›
      · cases taken
        exact .stay
  | merge idxList pIdx =>
    simp only [step] at taken
    split at taken
    · cases taken
      exact .stay
    · rename_i usable
      simp only [Bool.or_eq_true, List.isEmpty_iff, not_or] at usable
      cases taken
      exact .merge promised.1 usable.2 promised.2.1 promised.2.2
  | advance k =>
    simp only [step, Option.bind_eq_some_iff, Option.map_eq_some_iff] at taken
    obtain ⟨activity, here, ⟨next, activity'⟩, moved, rfl⟩ := taken
    refine change_of_next here (fun note first => heads note ?_) moved
    rw [here]
    exact first

end VendorModules.Synx
