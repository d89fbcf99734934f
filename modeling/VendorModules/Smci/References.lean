import VendorModules.Smci.Terminate

/-! Every step keeps the invariant of the transactions: each is counted right, is freed when nobody
has it any more, and is not used afterwards. -/

namespace VendorModules.Smci

open Function Lib

namespace Txn

inductive Along : Processing → Processing → Prop
  | stay (p : Processing) : Along p p
  | queue : Along .new .pending
  | pick : Along .pending .processing
  | respond : Along .processing .processed
  | drop : Along .pending .timedOut
  | timeOut : Along .processing .timedOut

variable {x x' : Txn} {p : Processing}

theorem setState_spec (set : x.setState p = some x') :
    x' = { x with processing := p } ∧ Along x.processing p ∧ x.processing ≠ .new ∧ p ≠ .new ∧
      p ≠ .pending := by
  cases p with
  | new => cases set
  | pending => cases set
  | processing =>
    simp only [setState, ite_not, Option.ite_none_right_eq_some, Option.some.injEq] at set
    obtain ⟨pending, rfl⟩ := set
    rw [pending]
    exact ⟨rfl, .pick, by decide, by decide, by decide⟩
  | processed =>
    simp only [setState, ite_not, Option.ite_none_right_eq_some, Option.some.injEq] at set
    obtain ⟨processing, rfl⟩ := set
    rw [processing]
    exact ⟨rfl, .respond, by decide, by decide, by decide⟩
  | timedOut =>
    simp only [setState, Option.ite_none_left_eq_some, Option.some.injEq] at set
    obtain ⟨either, rfl⟩ := set
    by_cases pending : x.processing = .pending
    · rw [pending]
      exact ⟨rfl, .drop, by decide, by decide, by decide⟩
    · have processing : x.processing = .processing := by
        by_contra differs
        exact either ⟨pending, differs⟩
      rw [processing]
      exact ⟨rfl, .timeOut, by decide, by decide, by decide⟩

theorem setState_moved (set : x.setState p = some x') : x.Moved x' := by
  obtain ⟨rfl, _, started, later⟩ := setState_spec set
  exact ⟨rfl, .inr ⟨started, later⟩⟩

end Txn

namespace State

variable {s s' : State} {k t : Nat} {a b : Thread} {x : Txn}

theorem moved_update (moved : (s.txns t).Moved x) (i : Nat) :
    (s.txns i).Moved (update s.txns t x i) := by
  rw [update_apply]
  split
  · rename_i same
    rw [same]
    exact moved
  · exact .refl _

theorem adjusts_update {listed : Nat → Prop} {own own' : Nat → Nat}
    (there : Kref.Adjusts (listed t) (s.txns t).kref x.kref (own t) (own' t))
    (others : ∀ i, i ≠ t → own' i = own i) (i : Nat) :
    Kref.Adjusts (listed i) (s.txns i).kref (update s.txns t x i).kref (own i) (own' i) := by
  rw [update_apply]
  split
  · rename_i same
    rw [same]
    exact there
  · rename_i differs
    rw [others i differs]
    exact .same

theorem mem_of_findTxn {id : ContextId} {p : Processing} (found : s.findTxn id p = some t) :
    t ∈ s.queue ∧ (s.txns t).ready p = true := by
  unfold findTxn at found
  have first := (Option.filter_eq_some_iff.mp found).1
  have sought := List.find?_some first
  exact ⟨List.mem_of_find?_eq_some first, (Bool.and_eq_true_iff.mp sought).2⟩

namespace Inv

variable (inv : s.Inv)
include inv

theorem serve (here : s.At k a) (threads : s'.threads = s.threads.set k b)
    (queue : s'.queue = s.queue) (dead : s'.dead = s.dead) (allocated : s'.allocated = s.allocated)
    (untouched : s'.touchedFreed = false) (moved : ∀ t, (s.txns t).Moved (s'.txns t))
    (adjusts : ∀ t, Kref.Adjusts (t ∈ s.queue) (s.txns t).kref (s'.txns t).kref (a.holds t)
      (b.holds t))
    (quiet : a.context = none) (picked : ∀ t, a.picker = some t →
      (s.txns t).contextId ≠ contextIdAny)
    (still : ∀ t, (s.txns t).processing = .pending → (s'.txns t).processing = .pending)
    (plain : b.context = none ∧ b.loose = none ∧ b.owner = none ∧ b.picker = none ∧
      b.stray = false) : s'.Inv := by
  refine inv.advance here threads queue dead allocated untouched moved adjusts (.inr plain.1)
    ?_ ?_ ?_ plain.2.2.2.2 (fits_of_none plain.2.1 plain.2.2.1 plain.2.2.2.1)
  · intro t _ calls
    rw [quiet] at calls
    cases calls
  · rw [threads]
    exact nodup_filterMap_set inv.pickers here (.inr plain.2.2.2.1)
  · rintro t _ release (⟨pending, changed⟩ | picks)
    · exact absurd (still t pending) changed
    · exact absurd release (picked t picks)

theorem call (here : s.At k a) (threads : s'.threads = s.threads.set k b)
    (queue : s'.queue = s.queue) (dead : s'.dead = s.dead) (allocated : s'.allocated = s.allocated)
    (untouched : s'.touchedFreed = false) (moved : ∀ t, (s.txns t).Moved (s'.txns t))
    (adjusts : ∀ t, Kref.Adjusts (t ∈ s.queue) (s.txns t).kref (s'.txns t).kref (a.holds t)
      (b.holds t))
    (contexts : b.context = a.context ∨ b.context = none)
    (keeps : ∀ t ∈ s.queue, a.context = some (s.txns t).contextId → a.keeps t →
      b.context = a.context ∧ b.keeps t)
    (serves : a.picker = none ∧ b.picker = none ∧ b.stray = false)
    (still : ∀ t, (s.txns t).contextId = contextIdAny → (s.txns t).processing = .pending →
      (s'.txns t).processing = .pending)
    (fits : s'.Fits b) : s'.Inv := by
  refine inv.advance here threads queue dead allocated untouched moved adjusts contexts keeps
    ?_ ?_ serves.2.2 fits
  · rw [threads]
    exact nodup_filterMap_set inv.pickers here (.inr serves.2.1)
  · rintro t _ release (⟨pending, changed⟩ | picks)
    · exact absurd (still t release pending) changed
    · rw [serves.1] at picks
      cases picks

theorem dropRef (here : s.At k a)
    (gives : ∀ i, a.holds i = b.holds i + if t = i then 1 else 0)
    (contexts : b.context = a.context ∨ b.context = none) (keeps : ∀ i, ¬a.keeps i)
    (serves : a.picker = none ∧ b.picker = none ∧ b.stray = false) (plain : b.loose = none ∧ b.owner = none) :
    ((s.putTxn t).goto k b).Inv := by
  have held : 0 < s.parties t := by
    have own := gives t
    rw [if_pos rfl] at own
    exact parties_of_holds here.mem (by omega)
  have still : ∀ i, (update s.txns t { s.txns t with kref := (s.txns t).kref.put } i).processing =
      (s.txns i).processing := by
    intro i
    rw [update_apply]
    split
    · rename_i same
      rw [same]
    · rfl
  refine inv.call here rfl rfl rfl rfl (inv.touch held) ?_ ?_ contexts ?_ serves ?_ ?_
  · exact moved_update ⟨rfl, .inl rfl⟩
  · refine adjusts_update ?_ ?_
    · rw [gives t, if_pos rfl]
      exact .put
    · intro i differs
      rw [gives i, if_neg fun same => differs same.symm, Nat.add_zero]
  · exact fun i _ _ kept => absurd kept (keeps i)
  · exact fun i _ pending => (still i).trans pending
  · exact fits_of_none plain.1 plain.2 serves.2.1

theorem timedOut {id : ContextId} (here : s.At k (.waiting id t)) : (s.timeOut k id t).Inv := by
  obtain ⟨listed, calls⟩ := (inv.fits _ here.mem).owner t rfl
  have untouched := inv.touch (parties_of_mem listed)
  have owns : ∀ i, (Thread.waiting id t).keeps i → i = t := by
    rintro i (own | ⟨id', is⟩)
    · exact (Option.some.inj own).symm
    · cases is
  unfold timeOut
  split
  · rename_i x set
    have moved := Txn.setState_moved set
    have same := (Txn.setState_spec set).1
    refine inv.call here rfl rfl rfl rfl untouched (moved_update moved) ?_ (.inl rfl) ?_
      ⟨rfl, rfl, rfl⟩ ?_ ?_
    · refine adjusts_update ?_ fun _ _ => rfl
      rw [same]
      exact .same
    · intro i _ _ kept
      exact ⟨rfl, .inl (congrArg some (owns i kept).symm)⟩
    · intro i release pending
      show (update s.txns t x i).processing = _
      rw [update_of_ne, pending]
      rintro rfl
      exact Thread.context_ne_any calls release
    · refine ⟨(fun _ is => by cases is), ?_, (fun _ is => by cases is), (fun _ _ is => by cases is),
        (fun _ _ is => by cases is)⟩
      intro i is
      cases is
      refine ⟨listed, calls.trans (congrArg some ?_)⟩
      show _ = (update s.txns t x t).contextId
      rw [update_self, moved.contextId]
  · refine inv.call here rfl rfl rfl rfl untouched (fun _ => .refl _) (fun _ => .same) (.inl rfl)
      ?_ ⟨rfl, rfl, rfl⟩ (fun _ _ pending => pending) ?_
    · intro i _ _ kept
      exact ⟨rfl, .inl (congrArg some (owns i kept).symm)⟩
    · refine ⟨(fun _ is => by cases is), ?_, (fun _ is => by cases is), (fun _ _ is => by cases is),
        (fun _ _ is => by cases is)⟩
      intro i is
      cases is
      exact ⟨listed, calls⟩

theorem collected {id : ContextId} (here : s.At k (.answered id t)) : (s.collect k id t).Inv := by
  obtain ⟨listed, calls⟩ := (inv.fits _ here.mem).owner t rfl
  have untouched := inv.touch (parties_of_mem listed)
  have call : id ≠ contextIdAny := by
    intro release
    rw [Thread.context, if_pos release] at calls
    cases calls
  unfold collect
  split
  · refine inv.call here rfl rfl rfl rfl untouched (fun _ => .refl _) (fun _ => .same) (.inl rfl)
      ?_ ⟨rfl, rfl, decide_eq_false call⟩ (fun _ _ pending => pending) (fits_of_none rfl rfl rfl)
    exact fun i _ _ _ => ⟨rfl, .inr ⟨id, rfl⟩⟩
  · refine inv.call here rfl rfl rfl rfl untouched (fun _ => .refl _) (fun _ => .same) (.inl rfl)
      ?_ ⟨rfl, rfl, rfl⟩ (fun _ _ pending => pending) ?_
    · rintro i _ _ (own | ⟨id', is⟩)
      · exact ⟨rfl, .inl own⟩
      · cases is
    · refine ⟨(fun _ is => by cases is), ?_, (fun _ is => by cases is), (fun _ _ is => by cases is),
        (fun _ _ is => by cases is)⟩
      intro i is
      cases is
      exact ⟨listed, calls⟩

theorem dequeued {id : ContextId} {errno : Int} (here : s.At k (.failing id t errno)) :
    ((s.dequeueTxn t).goto k (.dequeued id t errno)).Inv := by
  obtain ⟨listed, calls⟩ := (inv.fits _ here.mem).owner t rfl
  unfold dequeueTxn
  rw [if_pos (inv.queued t listed)]
  refine inv.takeOff here listed rfl rfl rfl rfl (inv.touch (parties_of_mem listed)) rfl ?_ rfl rfl
    rfl rfl (.inl ⟨calls, rfl⟩) ⟨(fun _ _ is => by cases is), (fun _ _ is => by cases is), rfl⟩
  intro i
  show (if t = i then 1 else 0) = 0 + if i = t then 1 else 0
  simp only [Nat.zero_add, eq_comm]

theorem dequeuedById {id : ContextId} {errno : Int} {status : Bool}
    (here : s.At k (.returned id errno)) (call : id ≠ contextIdAny) :
    (s.dequeueById k id status).Inv := by
  have context : (Thread.returned id errno).context = some id := if_neg call
  unfold dequeueById
  split
  · rename_i t found
    have listed := List.mem_of_find?_eq_some found
    have same : (s.txns t).contextId = id := by simpa using List.find?_some found
    refine inv.takeOff here listed rfl rfl rfl rfl inv.touchQueue rfl ?_ rfl rfl rfl rfl
      (.inl ⟨context.trans (congrArg some same.symm), rfl⟩)
      ⟨(fun _ _ is => by cases is), (fun _ _ is => by cases is), rfl⟩
    intro i
    show (if t = i then 1 else 0) = 0 + if i = t then 1 else 0
    simp only [Nat.zero_add, eq_comm]
  · rename_i none
    refine inv.call here rfl rfl rfl rfl inv.touchQueue (fun _ => .refl _) (fun _ => .same)
      (.inr rfl) ?_ ⟨rfl, rfl, rfl⟩ (fun _ _ pending => pending) (fits_of_none rfl rfl rfl)
    intro i listed calls _
    have other := List.find?_eq_none.mp none i listed
    rw [context] at calls
    exact absurd (decide_eq_true (Option.some.inj calls).symm) other

theorem parsed {r : Response} (here : s.At k (.parsing t r)) : (s.parse k t r).Inv := by
  have held : 0 < s.parties t := parties_of_holds here.mem (by simp [Thread.holds])
  refine inv.serve here rfl rfl rfl rfl (inv.touch held) ?_ ?_ rfl (fun _ is => by cases is) ?_
    ⟨rfl, rfl, rfl, rfl, rfl⟩
  · exact moved_update ⟨rfl, .inl rfl⟩
  · exact adjusts_update .same fun _ _ => rfl
  · intro i pending
    show (update s.txns t _ i).processing = _
    rw [update_apply]
    split
    · rename_i same
      exact same ▸ pending
    · exact pending

theorem submitted {own : List Object} {errno : Int} (here : s.At k (.submitting t own errno)) :
    (s.submit k t own errno).Inv := by
  have held : 0 < s.parties t := parties_of_holds here.mem (by simp [Thread.holds])
  unfold submit
  split
  · rename_i x set
    obtain ⟨same, along, _⟩ := Txn.setState_spec set
    refine inv.serve here rfl rfl rfl rfl (inv.touch held) (moved_update (Txn.setState_moved set))
      ?_ rfl (fun _ is => by cases is) ?_ ⟨rfl, rfl, rfl, rfl, rfl⟩
    · refine adjusts_update ?_ fun _ _ => rfl
      rw [same]
      exact .same
    · intro i pending
      show (update s.txns t x i).processing = _
      rw [update_of_ne, pending]
      rintro rfl
      rw [pending] at along
      cases along
  · exact inv.serve here rfl rfl rfl rfl (inv.touch held) (fun _ => .refl _) (fun _ => .same) rfl
      (fun _ is => by cases is) (fun _ => id) ⟨rfl, rfl, rfl, rfl, rfl⟩

theorem settled {own : List Object} {errno : Int} {accepted : Bool}
    (here : s.At k (.settling t own errno accepted)) : (s.settle k t own errno accepted).Inv := by
  have held : 0 < s.parties t := parties_of_holds here.mem (by simp [Thread.holds])
  generalize between : (if accepted then s.complete t else if errno = 0 then s.undo t own else s) = m
  have still : m.Inv ∧ m.threads = s.threads := by
    rw [← between]
    split
    · exact ⟨inv.completed held, rfl⟩
    · split
      · exact ⟨(inv.touched held).congr rfl rfl rfl rfl (inv.touch held) fun _ => ⟨rfl, rfl, rfl⟩,
          rfl⟩
      · exact ⟨inv, rfl⟩
  have there : m.At k (.settling t own errno accepted) := by
    unfold At
    rw [still.2]
    exact here
  unfold settle
  rw [between]
  exact still.1.dropRef there (fun i => (Nat.zero_add _).symm) (.inl rfl)
    (Thread.not_keeps rfl fun _ is => by cases is)
    ⟨rfl, rfl, rfl⟩ ⟨rfl, rfl⟩

theorem responded {r : Response} (here : s.At k .idle) : (s.respond k r).Inv := by
  unfold respond
  split
  · exact inv.serve here rfl rfl rfl rfl inv.untouched (fun _ => .refl _) (fun _ => .same) rfl
      (fun _ is => by cases is) (fun _ pending => pending) ⟨rfl, rfl, rfl, rfl, rfl⟩
  · split
    · rename_i t found
      obtain ⟨listed, _⟩ := mem_of_findTxn found
      have queue := inv.touchQueue
      have live := inv.not_dangling (parties_of_mem listed)
      refine inv.serve here rfl rfl rfl rfl (Bool.or_eq_false_iff.mpr ⟨queue, live⟩) ?_ ?_ rfl
        (fun _ is => by cases is) ?_ ⟨rfl, rfl, rfl, rfl, rfl⟩
      · exact moved_update ⟨rfl, .inl rfl⟩
      · refine adjusts_update ?_ ?_
        · show Kref.Adjusts _ _ _ 0 (if t = t then 1 else 0)
          rw [if_pos rfl]
          exact .get listed
        · intro i differs
          exact if_neg fun same => differs same.symm
      · intro i pending
        show (update s.txns t _ i).processing = _
        rw [update_apply]
        split
        · rename_i same
          exact same ▸ pending
        · exact pending
    · exact inv.serve here rfl rfl rfl rfl inv.touchQueue (fun _ => .refl _) (fun _ => .same) rfl
        (fun _ is => by cases is) (fun _ pending => pending) ⟨rfl, rfl, rfl, rfl, rfl⟩

theorem hasPicked (here : s.At k .accepting) (taken : s.pick k = some s') : s'.Inv := by
  unfold pick at taken
  split at taken
  · rename_i t found
    obtain ⟨listed, ready⟩ := mem_of_findTxn found
    have pending : (s.txns t).processing = .pending := of_decide_eq_true ready
    have live := inv.not_dangling (parties_of_mem listed)
    have set : ({ s.txns t with kref := (s.txns t).kref.get } : Txn).setState .processing =
        some { s.txns t with kref := (s.txns t).kref.get, processing := .processing } := by
      simp only [Txn.setState, pending, ne_eq, not_true_eq_false, if_false]
    dsimp only at taken
    rw [set, Option.getD_some] at taken
    cases taken
    have unpicked : ∀ thread ∈ s.threads, thread.picker ≠ (Thread.picked t).picker := by
      intro thread member picks
      exact ((inv.fits thread member).picker t picks).2.1 pending
    refine inv.advance here rfl rfl rfl rfl (Bool.or_eq_false_iff.mpr ⟨inv.touchQueue, live⟩)
      (moved_update ⟨rfl, .inr ⟨inv.queued t listed, by simp, by simp⟩⟩) ?_ (.inl rfl)
      (fun _ _ is => by cases is) ?_ ?_ rfl ?_
    · refine adjusts_update ?_ ?_
      · show Kref.Adjusts _ _ _ 0 (if t = t then 1 else 0)
        rw [if_pos rfl]
        exact .get listed
      · intro i differs
        exact if_neg fun same => differs same.symm
    · exact nodup_filterMap_claim inv.pickers here unpicked
    · rintro i _ _ (⟨waits, changed⟩ | picks)
      · by_cases same : i = t
        · rw [same]
          rfl
        · refine absurd waits fun _ => changed ?_
          show (update s.txns t _ i).processing = _
          rw [update_of_ne same, waits]
      · cases picks
    · refine ⟨(fun _ is => by cases is), (fun _ is => by cases is), ?_, (fun _ _ is => by cases is),
        (fun _ _ is => by cases is)⟩
      intro i is
      cases is
      show (update s.txns t _ t).processing ≠ _ ∧ (update s.txns t _ t).processing ≠ _ ∧ _
      rw [update_self]
      exact ⟨by simp, by simp, fun _ => listed⟩
  · cases taken

theorem constructed {ok : Bool} (here : s.At k (.picked t)) : (s.construct k t ok).Inv := by
  have held : 0 < s.parties t := parties_of_holds here.mem (by simp [Thread.holds])
  have fits := (inv.fits _ here.mem).picker t rfl
  unfold construct
  split
  · rename_i release
    refine inv.advance here rfl rfl rfl rfl (inv.touch held) (fun _ => .refl _) (fun _ => .same)
      (.inl rfl) (fun _ _ is => by cases is) (nodup_filterMap_set inv.pickers here (.inl rfl)) ?_ rfl ?_
    · rintro i _ _ (⟨waits, changed⟩ | picks)
      · exact absurd waits changed
      · exact picks
    · refine ⟨(fun _ is => by cases is), (fun _ is => by cases is), ?_, ?_,
        (fun _ _ is => by cases is)⟩
      · intro i is
        cases is
        exact fits
      · intro i ok' is
        cases is
        exact release
  · rename_i call
    have picked : ∀ i, (Thread.picked t).picker = some i → (s.txns i).contextId ≠ contextIdAny := by
      intro i is
      cases is
      exact call
    split
    · exact inv.serve here rfl rfl rfl rfl (inv.touch held) (fun _ => .refl _) (fun _ => .same) rfl
        picked (fun _ pending => pending) ⟨rfl, rfl, rfl, rfl, rfl⟩
    · refine inv.serve here rfl rfl rfl rfl (inv.touch held) ?_ ?_ rfl picked ?_
        ⟨rfl, rfl, rfl, rfl, rfl⟩
      · exact moved_update ⟨rfl, .inl rfl⟩
      · exact adjusts_update .same fun _ _ => rfl
      · intro i pending
        show (update s.txns t _ i).processing = _
        rw [update_apply]
        split
        · rename_i same
          exact same ▸ pending
        · exact pending

theorem withdrawn {ok : Bool} (here : s.At k (.withdrawing t ok)) :
    ((s.dequeueTxn t).goto k (.dropping t ok)).Inv := by
  have fits := inv.fits _ here.mem
  have release := fits.withdrawing t ok rfl
  have listed := (fits.picker t rfl).2.2 release
  unfold dequeueTxn
  rw [if_pos (inv.queued t listed)]
  refine inv.takeOff here listed rfl rfl rfl rfl (inv.touch (parties_of_mem listed)) rfl ?_ rfl rfl
    rfl rfl (.inr ⟨release, rfl, rfl⟩) ⟨(fun _ _ is => by cases is), (fun _ _ is => by cases is), rfl⟩
  intro i
  show (if t = i then 2 else 0) = (if t = i then 1 else 0) + if i = t then 1 else 0
  by_cases same : t = i
  · simp [same]
  · simp [same, Ne.symm same]

theorem enqueued {id : ContextId} (here : s.At k (.allocated id t)) :
    (s.queueTxn k id t).Inv := by
  have held : 0 < s.parties t := parties_of_holds here.mem (by simp [Thread.holds])
  unfold queueTxn
  split
  · have off := (inv.fits _ here.mem).loose t rfl
    have unkept : ∀ i, ¬(Thread.allocated id t).keeps i :=
      Thread.not_keeps rfl fun _ is => by cases is
    refine inv.call here rfl rfl rfl rfl inv.untouched (fun _ => .refl _) (fun _ => .same) ?_
      (fun i _ _ kept => absurd kept (unkept i)) ⟨rfl, rfl, rfl⟩ (fun _ _ pending => pending) ?_
    · exact .inl rfl
    · refine ⟨?_, (fun _ is => by cases is), (fun _ is => by cases is), (fun _ _ is => by cases is),
        (fun _ _ is => by cases is)⟩
      intro i is
      cases is
      exact off
  · rename_i alive
    exact inv.putOn here (Bool.eq_false_iff.mpr alive) rfl rfl rfl rfl (inv.touch held) rfl

theorem walk (here : s.At k a) (plain : a.context = none ∧ a.picker = none)
    (holds : ∀ i, b.holds i = a.holds i)
    (next : b.context = none ∧ b.loose = none ∧ b.owner = none ∧ b.picker = none ∧
      b.stray = false) :
    (s.goto k b).Inv := by
  refine inv.serve here rfl rfl rfl rfl inv.untouched (fun _ => .refl _) ?_ plain.1 ?_
    (fun _ pending => pending) next
  · intro i
    rw [holds i]
    exact .same
  · intro i picks
    rw [plain.2] at picks
    cases picks

theorem acted {act : Act} (here : s.At k a) (taken : s.act k a act = some s') : s'.Inv := by
  unfold State.act at taken
  split at taken
  · -- cbo_dispatch
    split at taken
    · rename_i unused
      cases taken
      exact inv.alloc here fun _ => unused
    · cases taken
  · -- cbo_release
    cases taken
    exact inv.alloc here fun call => absurd rfl call
  · cases taken
    exact inv.enqueued here
  · -- the invoke thread wakes
    split at taken
    · cases taken
      exact inv.timedOut here
    · cases taken
  · cases taken
    exact inv.collected here
  · cases taken
    exact inv.dequeued here
  · -- the dispatcher puts its transaction
    rename_i id t errno
    cases taken
    have unkept : ∀ i, ¬(Thread.dequeued id t errno).keeps i :=
      Thread.not_keeps rfl fun _ is => by cases is
    split
    · exact inv.dropRef here (fun _ => (Nat.zero_add _).symm) (.inr rfl) unkept ⟨rfl, rfl, rfl⟩
        ⟨rfl, rfl⟩
    · rename_i call
      exact inv.dropRef here (fun _ => (Nat.zero_add _).symm) (.inl rfl) unkept
        ⟨rfl, rfl, decide_eq_false call⟩ ⟨rfl, rfl⟩
  · -- cbo_notify
    cases taken
    exact inv.dequeuedById here (of_decide_eq_false (inv.strays _ here.mem))
  · split at taken
    · cases taken
    · rename_i failed
      cases taken
      refine inv.call here rfl rfl rfl rfl inv.untouched (fun _ => .refl _) (fun _ => .same)
        (.inr rfl) ?_ ⟨rfl, rfl, rfl⟩ (fun _ _ pending => pending) (fits_of_none rfl rfl rfl)
      rintro i _ _ (own | ⟨id', is⟩)
      · cases own
      · cases is
        exact absurd rfl failed
  · rename_i id t status
    cases taken
    have unkept : ∀ i, ¬(Thread.notifying id t status).keeps i :=
      Thread.not_keeps rfl fun _ is => by cases is
    have put : ((s.putTxn t).goto k .idle).Inv :=
      inv.dropRef here (fun _ => (Nat.zero_add _).symm) (.inr rfl) unkept ⟨rfl, rfl, rfl⟩ ⟨rfl, rfl⟩
    exact put.congr rfl rfl rfl rfl put.untouched fun _ => ⟨rfl, rfl, rfl⟩
  · -- process_accept_req
    split at taken
    · cases taken
    · cases taken
      exact inv.walk here ⟨rfl, rfl⟩ (fun _ => rfl) ⟨rfl, rfl, rfl, rfl, rfl⟩
  · split at taken
    · cases taken
    · cases taken
      exact inv.responded here
  · cases taken
    exact inv.parsed here
  · cases taken
    exact inv.submitted here
  · cases taken
    exact inv.settled here
  · cases taken
    exact inv.walk here ⟨rfl, rfl⟩ (fun _ => rfl) ⟨rfl, rfl, rfl, rfl, rfl⟩
  · exact inv.hasPicked here taken
  · cases taken
    exact inv.constructed here
  · cases taken
    exact inv.withdrawn here
  · rename_i t ok
    cases taken
    have unkept : ∀ i, ¬(Thread.dropping t ok).keeps i := Thread.not_keeps rfl fun _ is => by cases is
    refine inv.dropRef here ?_ (.inl rfl) unkept ⟨rfl, rfl, rfl⟩ ⟨rfl, rfl⟩
    intro i
    show (if t = i then 2 else 0) = (if t = i then 1 else 0) + if t = i then 1 else 0
    split <;> rfl
  · rename_i t ok
    cases taken
    have unkept : ∀ i, ¬(Thread.putting t ok).keeps i := Thread.not_keeps rfl fun _ is => by cases is
    cases ok with
    | true =>
      exact inv.dropRef here (fun _ => (Nat.zero_add _).symm) (.inl rfl) unkept ⟨rfl, rfl, rfl⟩
        ⟨rfl, rfl⟩
    | false =>
      exact inv.dropRef here (fun _ => (Nat.zero_add _).symm) (.inl rfl) unkept ⟨rfl, rfl, rfl⟩
        ⟨rfl, rfl⟩
  · cases taken

theorem step {move : Move} (taken : step s move = some s') : s'.Inv := by
  unfold Smci.step at taken
  split at taken
  · split at taken
    · rename_i here
      exact inv.acted here taken
    · cases taken
  · split at taken
    · rename_i closing
      cases taken
      refine inv.serverRelease fun thread member => ?_
      simpa using List.all_eq_true.mp closing.2 thread member
    · cases taken

end Inv

theorem Inv.start (n : Nat) : State.Inv { threads := List.replicate n .idle } := by
  have idle : ∀ thread ∈ List.replicate n Thread.idle, thread = .idle :=
    fun _ member => List.eq_of_mem_replicate member
  have none : ∀ t, ((List.replicate n Thread.idle).map (·.holds t)).sum + ([] : List Nat).count t =
      0 := by
    intro t
    simp [Thread.holds]
  exact {
    untouched := rfl
    counted := fun t below => absurd below (Nat.not_lt_zero t)
    beyond := fun t _ => none t
    nodup := List.nodup_nil
    distinct := fun _ member => absurd member List.not_mem_nil
    queued := fun _ member => absurd member List.not_mem_nil
    contexts := by
      have free : (List.replicate n Thread.idle).filterMap Thread.context = [] :=
        List.filterMap_eq_nil_iff.mpr fun thread member => by
          rw [idle thread member]
          rfl
      show ((List.replicate n Thread.idle).filterMap Thread.context).Nodup
      rw [free]
      exact List.nodup_nil
    pickers := by
      have free : (List.replicate n Thread.idle).filterMap Thread.picker = [] :=
        List.filterMap_eq_nil_iff.mpr fun thread member => by
          rw [idle thread member]
          rfl
      show ((List.replicate n Thread.idle).filterMap Thread.picker).Nodup
      rw [free]
      exact List.nodup_nil
    strays := by
      intro thread member
      rw [idle thread member]
      rfl
    fits := by
      intro thread member
      rw [idle thread member]
      exact fits_of_none rfl rfl rfl
    claimed := fun _ member => absurd member List.not_mem_nil }

theorem Inv.of_reachable {allowed : State → Move → Prop}
    (reached : Reachable Initial (StepOf Smci.step allowed) s) : s.Inv := by
  induction reached with
  | start initial =>
    obtain ⟨n, rfl⟩ := initial
    exact Inv.start n
  | next before taken ih =>
    obtain ⟨move, _, taken⟩ := taken
    exact ih.step taken

end State

end VendorModules.Smci
