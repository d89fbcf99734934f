import VendorModules.CamSync.Machine

namespace VendorModules.CamSync

open SyncTableRow Function

variable {s : State}

/-! ## Steps that find what they expect -/

def State.Current (s : State) (idx obj : Nat) : Prop := s.Live idx → s.history.ident idx = obj

/-- The next member of a merge is an individual object that is still there, and there is
memory for its links. -/
def State.Mergeable (s : State) (child : Nat) (alloc : LinkAlloc) : Prop :=
  (s.table child).type = .indv ∧ s.Live child ∧
    ((s.table child).state = .active → alloc = ⟨true, true⟩)

def Activity.Due (s : State) (alloc : LinkAlloc) : Activity → Prop
  | .merging _ _ (child :: _) => s.Mergeable child alloc
  | .signaling idx obj _ _ => s.Current idx obj
  | .visiting _ _ _ (parent :: _) => s.Current parent.syncId parent.group
  | _ => True

/-- No object is destroyed that a group still waits for, no merge fails half way, and no
row is used again before the last signal to it has come. -/
def Orderly (s : State) : Move → Prop
  | .destroy idx => ∀ parent ∈ (s.table idx).parentsList, ¬ s.Lives parent.group
  | .advance k alloc => ∀ activity ∈ s.running[k]?, activity.Due s alloc
  | _ => True

instance (s : State) (idx obj : Nat) : Decidable (s.Current idx obj) :=
  inferInstanceAs (Decidable (_ → _))

instance (s : State) (child : Nat) (alloc : LinkAlloc) : Decidable (s.Mergeable child alloc) :=
  instDecidableAnd

instance (s : State) (alloc : LinkAlloc) (activity : Activity) :
    Decidable (activity.Due s alloc) := by
  unfold Activity.Due
  split <;> infer_instance

instance (s : State) : DecidablePred (Orderly s) := fun move => by
  unfold Orderly
  split <;> infer_instance

/-! ## What a step does -/

inductive Activity.Proceeds (s : State) : Activity → Activity → Prop
  | valid {idx : Nat} {syncObjs rest : List Nat} (inside : idx < CAM_SYNC_MAX_OBJS)
      (live : s.Live idx) :
      Proceeds s (.checking syncObjs (idx :: rest)) (.checking syncObjs rest)
  | refused {syncObjs rest : List Nat} : Proceeds s (.checking syncObjs rest) .returned
  | noChild {idx child : Nat} {children : List Nat} {parents : List SyncParentInfo} :
      Proceeds s (.destroying idx (child :: children) parents) (.destroying idx children parents)
  | noParent {idx : Nat} {parent : SyncParentInfo} {parents : List SyncParentInfo} :
      Proceeds s (.destroying idx [] (parent :: parents)) (.destroying idx [] parents)

inductive Change (s : State) : Move → State → Prop
  | stay {move : Move} : Change s move s
  | reserve {idx : Nat} {synxObj : Bool} (free : s.FreeBit idx) :
      Change s (.create idx synxObj)
        ({ s with bitmap := update s.bitmap idx true }.start (.creating idx synxObj))
  | check {syncObjs : List Nat} (several : 1 < syncObjs.length) (nodup : syncObjs.Nodup) :
      Change s (.merge syncObjs) (s.start (.checking syncObjs syncObjs))
  | take {k idx : Nat} {syncObjs : List Nat} (here : s.running[k]? = some (.checking syncObjs []))
      (free : s.FreeBit idx) :
      Change s (.take k idx)
        ({ s with bitmap := update s.bitmap idx true }.resume k (.locking idx syncObjs))
  | refs {move : Move} (idx : Nat) (refCnt : Int) :
      Change s move (s.setRow idx { s.table idx with refCnt := refCnt })
  | accept {idx status eventCause : Nat} {state : SyncState} (unlocked : s.locked idx = false)
      (valid : (s.table idx).signalValidate status = .ok state) :
      Change s (.signal idx status eventCause)
        ((s.accept idx state).start (.signaling idx (s.history.ident idx) state eventCause))
  | signal {idx status eventCause : Nat} {state : SyncState} (unlocked : s.locked idx = false)
      (valid : (s.table idx).signalValidate status = .ok state) :
      Change s (.signal idx status eventCause)
        (((s.accept idx state).finishSignal idx state eventCause).1.start
          (.visiting (s.history.ident idx) state eventCause
            ((s.accept idx state).finishSignal idx state eventCause).2))
  | callback {idx callbackFunc cbData : Nat} {row : SyncTableRow} {deliveries : List Delivery}
      (unlocked : s.locked idx = false)
      (answer : (s.table idx).registerCallback idx
        ⟨callbackFunc, cbData, s.history.registrations⟩ = .ok (row, deliveries)) :
      Change s (.registerCallback idx callbackFunc cbData)
        (((s.register idx).setRow idx row).deliver deliveries)
  | callbackBack {idx callbackFunc cbData : Nat} {row : SyncTableRow}
      (answer : (s.table idx).deregisterCallback callbackFunc cbData = .ok row) :
      Change s (.deregisterCallback idx callbackFunc cbData)
        ((s.setRow idx row).drop (((s.table idx).callbackList.filter
          (callbackMatches callbackFunc cbData)).map SyncCallbackInfo.number))
  | payload {idx : Nat} {payloadData : Nat × Nat} {row : SyncTableRow}
      {deliveries : List Delivery} (unlocked : s.locked idx = false)
      (answer : (s.table idx).registerUserPayload idx
        ⟨payloadData, s.history.registrations⟩ = .ok (row, deliveries)) :
      Change s (.registerUserPayload idx payloadData)
        (((s.register idx).setRow idx row).deliver deliveries)
  | payloadBack {idx : Nat} {payloadData : Nat × Nat} {row : SyncTableRow}
      (answer : (s.table idx).deregisterUserPayload payloadData = .ok row) :
      Change s (.deregisterUserPayload idx payloadData)
        ((s.setRow idx row).drop (((s.table idx).userPayloadList.filter
          (·.payloadData = payloadData)).map SyncUserPayload.number))
  | detach {idx : Nat} (positive : 0 < idx) (unlocked : s.locked idx = false)
      (live : s.Live idx) :
      Change s (.destroy idx)
        ((s.setRow idx (s.table idx).detach).start
          (.destroying idx ((s.table idx).childrenList.filter fun child => 0 < child)
            ((s.table idx).parentsList.filter fun parent => 0 < parent.syncId)))
  | proceed {k : Nat} {alloc : LinkAlloc} {activity activity' : Activity}
      (here : s.running[k]? = some activity) (proceeds : activity.Proceeds s activity') :
      Change s (.advance k alloc) (s.resume k activity')
  | create {k idx : Nat} {alloc : LinkAlloc} {synxObj : Bool}
      (here : s.running[k]? = some (.creating idx synxObj)) :
      Change s (.advance k alloc) ((s.create idx synxObj).resume k .returned)
  | lockGroup {k idx : Nat} {alloc : LinkAlloc} {syncObjs : List Nat}
      (here : s.running[k]? = some (.locking idx syncObjs)) :
      Change s (.advance k alloc) ((s.lockGroup idx).resume k (.merging idx [] syncObjs))
  | link {k idx child : Nat} {alloc : LinkAlloc} {linked rest : List Nat}
      (here : s.running[k]? = some (.merging idx linked (child :: rest)))
      (unlocked : s.locked child = false) :
      Change s (.advance k alloc)
        ((s.link idx linked child rest alloc).1.resume k (s.link idx linked child rest alloc).2)
  | finishGroup {k idx : Nat} {alloc : LinkAlloc} {linked : List Nat}
      (here : s.running[k]? = some (.merging idx linked [])) :
      Change s (.advance k alloc) ((s.finishGroup idx).resume k .returned)
  | undo {k idx : Nat} {alloc : LinkAlloc} {linked : List Nat} (s' : State)
      (here : s.running[k]? = some (.undoing idx linked)) : Change s (.advance k alloc) s'
  | finishSignal {k idx obj eventCause : Nat} {alloc : LinkAlloc} {status : SyncState}
      (here : s.running[k]? = some (.signaling idx obj status eventCause)) :
      Change s (.advance k alloc)
        ((s.finishSignal idx status eventCause).1.resume k
          (.visiting obj status eventCause (s.finishSignal idx status eventCause).2))
  | visit {k child eventCause : Nat} {alloc : LinkAlloc} {status : SyncState}
      {parent : SyncParentInfo} {parents : List SyncParentInfo}
      (here : s.running[k]? = some (.visiting child status eventCause (parent :: parents)))
      (unlocked : s.locked parent.syncId = false) :
      Change s (.advance k alloc)
        ((s.visit parent child status eventCause).resume k
          (.visiting child status eventCause parents))
  | unlinkChild {k idx child : Nat} {alloc : LinkAlloc} {children : List Nat}
      {parents : List SyncParentInfo}
      (here : s.running[k]? = some (.destroying idx (child :: children) parents)) :
      Change s (.advance k alloc)
        ((s.setRow child ((s.table child).cleanupParentsList idx)).resume k
          (.destroying idx children parents))
  | unlinkParent {k idx : Nat} {alloc : LinkAlloc} {parent : SyncParentInfo}
      {parents : List SyncParentInfo}
      (here : s.running[k]? = some (.destroying idx [] (parent :: parents))) :
      Change s (.advance k alloc)
        ((s.setRow parent.syncId ((s.table parent.syncId).cleanupChildrenList idx)).resume k
          (.destroying idx [] parents))
  | free {k idx : Nat} {alloc : LinkAlloc}
      (here : s.running[k]? = some (.destroying idx [] [])) :
      Change s (.advance k alloc) ((s.free idx).resume k .returned)

theorem lockRow_eq_some {idx : Nat} {row : SyncTableRow} (found : s.lockRow idx = some row) :
    0 < idx ∧ s.locked idx = false ∧ row = s.table idx := by
  unfold State.lockRow at found
  split at found
  · rename_i may
    exact ⟨may.1, may.2.2, (Option.some.inj found).symm⟩
  · cases found

theorem change_of_next {k : Nat} {alloc : LinkAlloc} {activity activity' : Activity}
    {next : State} (here : s.running[k]? = some activity)
    (moved : activity.next s alloc = some (next, activity')) :
    Change s (.advance k alloc) (next.resume k activity') := by
  cases activity with
  | creating idx synxObj =>
    simp only [Activity.next] at moved
    split at moved
    · cases moved
    · cases moved
      exact .create here
  | checking syncObjs rest =>
    cases rest with
    | nil => cases moved
    | cons idx rest =>
      simp only [Activity.next] at moved
      split at moved
      · cases moved
        exact .proceed here .refused
      · rename_i inside
        split at moved
        · cases moved
        · split at moved
          · cases moved
            exact .proceed here .refused
          · rename_i present
            cases moved
            simp only [not_or] at inside present
            exact .proceed here (.valid (Nat.lt_of_not_le inside.2) present.2)
  | locking idx syncObjs =>
    simp only [Activity.next] at moved
    split at moved
    · cases moved
    · cases moved
      exact .lockGroup here
  | merging idx linked rest =>
    cases rest with
    | nil =>
      cases moved
      exact .finishGroup here
    | cons child rest =>
      simp only [Activity.next] at moved
      split at moved
      · cases moved
      · rename_i unlocked
        have linked := Option.some.inj moved
        obtain ⟨rfl, rfl⟩ := Prod.mk.inj (linked.symm.trans rfl)
        exact .link here (eq_false_of_ne_true unlocked)
  | undoing idx linked => exact .undo _ here
  | signaling idx obj status eventCause =>
    simp only [Activity.next] at moved
    split at moved
    · cases moved
    · cases moved
      exact .finishSignal here
  | visiting child status eventCause parents =>
    cases parents with
    | nil => cases moved
    | cons parent parents =>
      simp only [Activity.next] at moved
      split at moved
      · cases moved
      · rename_i unlocked
        cases moved
        exact .visit here (eq_false_of_ne_true unlocked)
  | destroying idx children parents =>
    cases children with
    | cons child children =>
      simp only [Activity.next] at moved
      split at moved
      · cases moved
      · split at moved
        · cases moved
          exact .proceed here .noChild
        · cases moved
          exact .unlinkChild here
    | nil =>
      cases parents with
      | cons parent parents =>
        simp only [Activity.next] at moved
        split at moved
        · cases moved
        · split at moved
          · cases moved
            exact .proceed here .noParent
          · cases moved
            exact .unlinkParent here
      | nil =>
        simp only [Activity.next] at moved
        split at moved
        · cases moved
        · cases moved
          exact .free here
  | returned => cases moved

theorem change_of_step {move : Move} {s' : State} (taken : step s move = some s') :
    Change s move s' := by
  cases move with
  | create idx synxObj =>
    simp only [step] at taken
    split at taken
    · cases taken
      exact .reserve ‹_›
    · cases taken
  | merge syncObjs =>
    simp only [step] at taken
    split at taken
    · rename_i usable
      cases taken
      exact .check usable.1 usable.2
    · cases taken
      exact .stay
  | take k idx =>
    simp only [step] at taken
    split at taken
    · rename_i syncObjs here
      split at taken
      · cases taken
        exact .take here ‹_›
      · cases taken
    · cases taken
  | getObjRef idx =>
    obtain ⟨row, found, rfl⟩ := Option.map_eq_some_iff.mp taken
    obtain ⟨-, -, rfl⟩ := lockRow_eq_some found
    split
    · exact .refs idx _
    · exact .stay
  | putObjRef idx =>
    simp only [step] at taken
    split at taken
    · cases taken
      exact .refs idx _
    · cases taken
      exact .stay
  | signal idx status eventCause =>
    obtain ⟨row, found, rfl⟩ := Option.map_eq_some_iff.mp taken
    obtain ⟨-, unlocked, rfl⟩ := lockRow_eq_some found
    split
    · exact .stay
    · rename_i state valid
      split
      · exact .refs idx _
      · split
        · exact .accept unlocked valid
        · exact .signal unlocked valid
  | registerCallback idx callbackFunc cbData =>
    obtain ⟨row, found, rfl⟩ := Option.map_eq_some_iff.mp taken
    obtain ⟨-, unlocked, rfl⟩ := lockRow_eq_some found
    split
    · exact .stay
    · exact .callback unlocked ‹_›
  | deregisterCallback idx callbackFunc cbData =>
    obtain ⟨row, found, rfl⟩ := Option.map_eq_some_iff.mp taken
    obtain ⟨-, unlocked, rfl⟩ := lockRow_eq_some found
    split
    · exact .stay
    · exact .callbackBack ‹_›
  | registerUserPayload idx payloadData =>
    obtain ⟨row, found, rfl⟩ := Option.map_eq_some_iff.mp taken
    obtain ⟨-, unlocked, rfl⟩ := lockRow_eq_some found
    split
    · exact .stay
    · exact .payload unlocked ‹_›
  | deregisterUserPayload idx payloadData =>
    obtain ⟨row, found, rfl⟩ := Option.map_eq_some_iff.mp taken
    obtain ⟨-, unlocked, rfl⟩ := lockRow_eq_some found
    split
    · exact .stay
    · exact .payloadBack ‹_›
  | destroy idx =>
    obtain ⟨row, found, rfl⟩ := Option.map_eq_some_iff.mp taken
    obtain ⟨positive, unlocked, rfl⟩ := lockRow_eq_some found
    split
    · exact .stay
    · exact .detach positive unlocked ‹_›
  | advance k alloc =>
    simp only [step, Option.bind_eq_some_iff, Option.map_eq_some_iff] at taken
    obtain ⟨activity, here, ⟨next, activity'⟩, moved, rfl⟩ := taken
    exact change_of_next here moved

end VendorModules.CamSync
