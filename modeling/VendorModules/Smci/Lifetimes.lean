import VendorModules.Smci.References

/-! The life of a transaction: the states it goes through, and its end. -/

namespace VendorModules.Smci

open Function Lib

namespace State

variable {s s' : State} {k t : Nat} {a : Thread} {x : Txn}

/-- What a step of a thread does to the transactions: nothing, something to one that there are
references to, or it adds one. -/
inductive Effect (s s' : State) : Prop
  | none (txns : s'.txns = s.txns) (allocated : s'.allocated = s.allocated)
  | write (t : Nat) (x : Txn) (held : 0 < s.parties t)
      (along : Txn.Along (s.txns t).processing x.processing)
      (txns : s'.txns = update s.txns t x) (allocated : s'.allocated = s.allocated)
  | alloc (x : Txn) (new : x.processing = .new) (txns : s'.txns = update s.txns s.allocated x)
      (allocated : s'.allocated = s.allocated + 1)

theorem Effect.keep (held : 0 < s.parties t) (txns : s'.txns = update s.txns t x)
    (allocated : s'.allocated = s.allocated) (same : x.processing = (s.txns t).processing) :
    Effect s s' :=
  .write t x held (same ▸ .stay _) txns allocated

/-- Each transaction goes on as it may, none is changed after it has been freed, and each starts as
new. -/
structure Lawful (s s' : State) : Prop where
  along : ∀ t < s.allocated, Txn.Along (s.txns t).processing (s'.txns t).processing
  final : ∀ t < s.allocated, (s.txns t).kref.freed ≠ 0 → s'.txns t = s.txns t
  new : ∀ t, s.allocated ≤ t → t < s'.allocated → (s'.txns t).processing = .new

theorem Inv.live (inv : s.Inv) (held : 0 < s.parties t) : (s.txns t).kref.freed = 0 :=
  ((inv.counted t (inv.lt_allocated held)).live held).2

theorem Effect.lawful (inv : s.Inv) (effect : Effect s s') : Lawful s s' := by
  cases effect with
  | none txns allocated =>
    refine ⟨fun t _ => ?_, fun t _ _ => ?_, fun t above below => ?_⟩
    · rw [txns]
      exact .stay _
    · rw [txns]
    · omega
  | write i x held along txns allocated =>
    refine ⟨fun t _ => ?_, fun t _ freed => ?_, fun t above below => ?_⟩
    · rw [txns, update_apply]
      split
      · rename_i same
        rw [same]
        exact along
      · exact .stay _
    · rw [txns, update_of_ne]
      rintro rfl
      exact freed (inv.live held)
    · omega
  | alloc x new txns allocated =>
    have others : ∀ t < s.allocated, s'.txns t = s.txns t := by
      intro t below
      rw [txns, update_of_ne]
      omega
    refine ⟨fun t below => ?_, fun t below _ => others t below, fun t above below => ?_⟩
    · rw [others t below]
      exact .stay _
    · have same : t = s.allocated := by omega
      rw [same, txns, update_self, new]

theorem holds_pos (here : s.At k a) (holds : a.holds t = 1) : 0 < s.parties t :=
  parties_of_holds here.mem (by omega)

theorem acted_effect (inv : s.Inv) {act : Act} (here : s.At k a)
    (taken : s.act k a act = some s') : Effect s s' := by
  have owned : ∀ t, a.owner = some t → 0 < s.parties t := fun t owns =>
    parties_of_mem ((inv.fits a here.mem).owner t owns).1
  unfold State.act at taken
  split at taken
  · split at taken
    · cases taken
      exact .alloc _ rfl rfl rfl
    · cases taken
  · cases taken
    exact .alloc _ rfl rfl rfl
  · rename_i id t
    cases taken
    unfold queueTxn
    split
    · exact .none rfl rfl
    · refine .write t _ (holds_pos here (if_pos rfl)) ?_ rfl rfl
      rw [((inv.fits _ here.mem).fresh id t rfl).2.1]
      exact .queue
  · rename_i id t killed
    split at taken
    · cases taken
      unfold timeOut
      split
      · rename_i x set
        obtain ⟨rfl, along, _⟩ := Txn.setState_spec set
        exact .write t _ (owned t rfl) along rfl rfl
      · exact .none rfl rfl
    · cases taken
  · cases taken
    unfold collect
    split <;> exact .none rfl rfl
  · cases taken
    unfold dequeueTxn
    split <;> exact .none rfl rfl
  · rename_i id t errno
    cases taken
    exact .keep (holds_pos here (if_pos rfl)) rfl rfl rfl
  · cases taken
    unfold dequeueById
    split <;> exact .none rfl rfl
  · split at taken
    · cases taken
    · cases taken
      exact .none rfl rfl
  · rename_i id t status
    cases taken
    exact .keep (holds_pos here (if_pos rfl)) rfl rfl rfl
  · split at taken
    · cases taken
    · cases taken
      exact .none rfl rfl
  · split at taken
    · cases taken
    · cases taken
      unfold respond
      split
      · exact .none rfl rfl
      · split
        · rename_i t found
          exact .keep (parties_of_mem (mem_of_findTxn found).1) rfl rfl rfl
        · exact .none rfl rfl
  · rename_i t r
    cases taken
    exact .keep (holds_pos here (if_pos rfl)) rfl rfl rfl
  · rename_i t own errno
    cases taken
    unfold submit
    split
    · rename_i x set
      obtain ⟨rfl, along, _⟩ := Txn.setState_spec set
      exact .write t _ (holds_pos here (if_pos rfl)) along rfl rfl
    · exact .none rfl rfl
  · rename_i t own errno accepted
    cases taken
    have held := holds_pos here (if_pos rfl : (Thread.settling t own errno accepted).holds t = 1)
    unfold settle
    split
    · refine .write t { s.txns t with
        kref := (s.txns t).kref.put, completion := (s.txns t).completion + 1 } held (.stay _) ?_ rfl
      show update (update s.txns t _) t _ = _
      rw [update_idem]
      show update s.txns t { (update s.txns t _) t with
        kref := ((update s.txns t _) t).kref.put } = _
      rw [update_self]
    · split <;> exact .keep held rfl rfl rfl
  · cases taken
    exact .none rfl rfl
  · unfold pick at taken
    split at taken
    · rename_i t found
      obtain ⟨listed, ready⟩ := mem_of_findTxn found
      have pending : (s.txns t).processing = .pending := of_decide_eq_true ready
      cases taken
      refine .write t _ (parties_of_mem listed) ?_ rfl rfl
      simp only [Txn.setState, pending, ne_eq, not_true_eq_false, if_false, Option.getD_some]
      exact .pick
    · cases taken
  · rename_i t ok
    cases taken
    have held := holds_pos here (if_pos rfl : (Thread.picked t).holds t = 1)
    unfold construct
    split
    · exact .none rfl rfl
    · split
      · exact .none rfl rfl
      · exact .keep held rfl rfl rfl
  · cases taken
    unfold dequeueTxn
    split <;> exact .none rfl rfl
  · rename_i t ok
    cases taken
    have held : 0 < s.parties t := parties_of_holds here.mem (by simp [Thread.holds])
    exact .keep held rfl rfl rfl
  · rename_i t ok
    cases taken
    exact .keep (holds_pos here (if_pos rfl)) rfl rfl rfl
  · cases taken

theorem foldl_terminate_txns (ts : List Nat) (s : State) :
    (ts.foldl terminate s).allocated = s.allocated ∧
      ∀ i, ((ts.foldl terminate s).txns i).processing = (s.txns i).processing ∧
        (i ∉ ts → (ts.foldl terminate s).txns i = s.txns i) := by
  induction ts generalizing s with
  | nil => exact ⟨rfl, fun _ => ⟨rfl, fun _ => rfl⟩⟩
  | cons t ts ih =>
    have written : ∀ x : Txn, x.processing = (s.txns t).processing → ∀ i,
        (update s.txns t x i).processing = (s.txns i).processing ∧
          (i ≠ t → update s.txns t x i = s.txns i) := by
      intro x same i
      refine ⟨?_, fun differs => update_of_ne differs ..⟩
      rw [update_apply]
      split
      · rename_i is
        rw [is, same]
      · rfl
    have one : (s.terminate t).allocated = s.allocated ∧
        ∀ i, ((s.terminate t).txns i).processing = (s.txns i).processing ∧
          (i ≠ t → (s.terminate t).txns i = s.txns i) := by
      unfold terminate
      split_ifs
      · exact ⟨rfl, written _ rfl⟩
      · exact ⟨rfl, fun _ => ⟨rfl, fun _ => rfl⟩⟩
      · exact ⟨rfl, written _ rfl⟩
      · exact ⟨rfl, fun _ => ⟨rfl, fun _ => rfl⟩⟩
    obtain ⟨allocated, rest⟩ := ih (s.terminate t)
    refine ⟨allocated.trans one.1, fun i => ⟨(rest i).1.trans (one.2 i).1, fun absent => ?_⟩⟩
    have later := (rest i).2 fun member => absent (List.mem_cons_of_mem _ member)
    have head := (one.2 i).2 fun is => absent (is ▸ List.mem_cons_self ..)
    exact later.trans head

theorem lawful_of_step (inv : s.Inv) {move : Move} (taken : step s move = some s') :
    Lawful s s' := by
  unfold step at taken
  split at taken
  · split at taken
    · rename_i here
      exact (acted_effect inv here taken).lawful inv
    · cases taken
  · split at taken
    · cases taken
      obtain ⟨allocated, txns⟩ := foldl_terminate_txns s.queue { s with dead := true }
      refine ⟨fun t _ => ?_, fun t _ freed => (txns t).2 fun listed => ?_, fun t above below => ?_⟩
      · show Txn.Along _ (State.txns _ t).processing
        unfold serverRelease
        rw [(txns t).1]
        exact .stay _
      · exact freed (inv.live (parties_of_mem listed))
      · have same : s.serverRelease.allocated = s.allocated := allocated
        omega
    · cases taken

/-- The references to a transaction are counted, it is freed once, and nothing is used that is
not there. When all calls of an ended server are over, all are freed. -/
structure Sound (s : State) : Prop where
  counted : ∀ t < s.allocated, 0 < s.parties t → (s.txns t).kref.refs = s.parties t
  freed : ∀ t < s.allocated, (s.txns t).kref.freed = if s.parties t = 0 then 1 else 0
  listed : ∀ t ∈ s.queue, t < s.allocated ∧ (s.txns t).kref.freed = 0
  untouched : s.touchedFreed = false
  ended : s.dead = true → (∀ thread ∈ s.threads, thread = .idle) →
    ∀ t < s.allocated, (s.txns t).kref.freed = 1

theorem Inv.queue_eq_nil (inv : s.Inv) (dead : s.dead = true)
    (idle : ∀ thread ∈ s.threads, thread = .idle) : s.queue = [] := by
  rw [List.eq_nil_iff_forall_not_mem]
  intro t listed
  have claimed := inv.claimed t listed
  unfold Claimed at claimed
  split at claimed
  · rcases claimed with ⟨_, alive⟩ | ⟨thread, member, picks⟩
    · rw [dead] at alive
      cases alive
    · rw [idle thread member] at picks
      cases picks
  · obtain ⟨thread, member, calls, _⟩ := claimed
    rw [idle thread member] at calls
    cases calls

theorem Inv.sound (inv : s.Inv) : s.Sound where
  counted := fun t below held => ((inv.counted t below).live held).1
  freed := fun t below => (inv.counted t below).freed_eq
  listed := fun _ listed => ⟨inv.lt_allocated (parties_of_mem listed), inv.live (parties_of_mem listed)⟩
  untouched := inv.untouched
  ended := by
    intro dead idle t below
    have none : s.parties t = 0 := by
      have sum : (s.threads.map (·.holds t)).sum = 0 := by
        rw [List.sum_eq_zero_iff_forall_eq_nat]
        intro n member
        obtain ⟨thread, there, rfl⟩ := List.mem_map.mp member
        rw [idle thread there]
        rfl
      unfold parties
      rw [sum, inv.queue_eq_nil dead idle]
      rfl
    rw [(inv.counted t below).freed_eq, if_pos none]

end State

/-- In every run transactions only make the transitions they may, their references are counted, and
they are freed once and not used after that. -/
theorem transactions_counted :
    (∀ s, Reachable Initial (StepOf step fun _ _ => True) s → s.Sound) ∧
    ∀ s move s', Reachable Initial (StepOf step fun _ _ => True) s → step s move = some s' →
      s.Lawful s' := by
  constructor
  · intro s reached
    exact (State.Inv.of_reachable reached).sound
  · intro s move s' reached taken
    exact State.lawful_of_step (State.Inv.of_reachable reached) taken

def servedMoves : List Move :=
  [.thread 0 (.dispatch 1 { oo := [.null] } true), .thread 0 .queue, .thread 1 (.accept none),
    .thread 1 .pick, .thread 1 (.construct true), .thread 1 .put,
    .thread 1 (.accept (some { txnId := 1, result := 0, args := some fun _ => ⟨0, true, some (.callback 7)⟩ })),
    .thread 1 .parse, .thread 1 .submit, .thread 1 .settle, .thread 0 (.wake false),
    .thread 0 .collect, .thread 0 (.notify false), .thread 0 .put, .thread 0 (.release true),
    .thread 0 .queue, .thread 1 .pick, .thread 1 (.construct true), .thread 1 .dequeue,
    .thread 1 .put, .thread 1 .put, .close]

theorem servedMoves_run : (play step (fun _ _ => True) { threads := [.idle, .idle] }
    servedMoves).isSome := by
  decide +kernel

def served : State :=
  (play step (fun _ _ => True) { threads := [.idle, .idle] } servedMoves).get servedMoves_run

theorem served_counted : served.allocated = 2 ∧ (served.txns 0).kref.freed = 1 ∧ served.Sound := by
  have start : Reachable Initial (StepOf step fun _ _ => True) { threads := [.idle, .idle] } :=
    .start ⟨2, rfl⟩
  exact ⟨by decide +kernel, by decide +kernel,
    transactions_counted.1 served (play_reachable start servedMoves_run)⟩

end VendorModules.Smci
