import VendorModules.Smci.Objects

/-! What becomes of the references that responses take. -/

namespace VendorModules.Smci

open Function Lib

theorem Txn.not_waiting {x : Txn} (refused : x.setState .timedOut = none) :
    x.processing ≠ .pending ∧ x.processing ≠ .processing := by
  unfold setState at refused
  split at refused
  · rename_i impossible
    cases impossible
  · rename_i impossible
    cases impossible
  · split at refused
    · assumption
    · cases refused
  · rename_i _ _ impossible
    exact absurd rfl impossible

theorem notify_count (status : Bool) (oo : List Object) (o : Object) :
    (oo.flatMap fun o => (if status then o.putUnlessUser else []) ++ o.put).count o +
      (oo.flatMap fun o => if status then [] else o.putUnlessUser).count o =
        (gotten oo).count o := by
  induction oo with
  | nil => rfl
  | cons first rest ih =>
    have both := congrArg (List.count o) first.putUnlessUser_append_put
    rw [List.count_append] at both
    cases status with
    | true =>
      simp only [gotten, List.flatMap_cons, List.count_append, if_true, List.count_nil] at ih ⊢
      omega
    | false =>
      simp only [gotten, List.flatMap_cons, List.count_append, Bool.false_eq_true, if_false,
        List.count_nil] at ih ⊢
      omega

namespace State

variable {s s' : State} {k t : Nat} {a b thread : Thread} {x : Txn} {o : Object}

theorem alike_update (alike : (s.txns t).Alike x) (i : Nat) :
    (s.txns i).Alike (update s.txns t x i) := by
  rw [update_apply]
  split
  · rename_i is
    rw [is]
    exact alike
  · exact .refl _

theorem putTxn_alike (s : State) (t i : Nat) : (s.txns i).Alike ((s.putTxn t).txns i) := by
  have one : (s.txns t).Alike { s.txns t with kref := (s.txns t).kref.put } := ⟨rfl, rfl, rfl, rfl⟩
  exact alike_update one i

theorem complete_alike (s : State) (t i : Nat) : (s.txns i).Alike ((s.complete t).txns i) := by
  have one : (s.txns t).Alike { s.txns t with completion := (s.txns t).completion + 1 } :=
    ⟨rfl, rfl, rfl, rfl⟩
  exact alike_update one i

namespace Kept

variable (kept : s.Kept) (inv : s.Inv)
include kept inv

theorem timeOut {id : ContextId} (here : s.At k (.waiting id t)) : (s.timeOut k id t).Kept := by
  have taken : s.act k (.waiting id t) (.wake true) = some (s.timeOut k id t) := rfl
  have lawful := (acted_effect inv here taken).lawful inv
  clear taken
  have waits : (s.txns t).processing ≠ .timedOut := kept.carries _ here.mem
  have started := inv.queued t ((inv.fits _ here.mem).owner t rfl).1
  unfold State.timeOut at lawful ⊢
  split
  · rename_i x set
    obtain ⟨rfl, along, _⟩ := Txn.setState_spec set
    rw [set] at lawful
    have open_ : (s.txns t).processing ≠ .processed := by
      intro done
      rw [done] at along
      cases along
    have quiet : (s.txns t).Quiet { s.txns t with processing := .timedOut } :=
      ⟨rfl, rfl, rfl, .inr ⟨open_, waits, by simp⟩⟩
    refine kept.advance inv lawful here rfl rfl rfl (quiet_update quiet) ?_ ?_ rfl (fun _ => .inl)
      (fun _ => .inl) (.inl rfl) (fun _ => rfl) ⟨by decide, .inl ?_⟩
    · intro i new
      show (update s.txns t _ i).processing = _
      rw [update_of_ne]
      · exact new
      · rintro rfl
        exact started new
    · intro i timedOut
      by_cases same : i = t
      · exact .inr (congrArg some same.symm)
      · have other : update s.txns t { s.txns t with processing := .timedOut } i = s.txns i :=
          update_of_ne same ..
        exact .inl (other ▸ timedOut)
    · show (update s.txns t { s.txns t with processing := .timedOut } t).processing = _
      rw [update_self]
  · rename_i refused
    rw [refused] at lawful
    refine kept.walk inv lawful here rfl rfl rfl (fun _ => .refl _) rfl (fun _ => .inl)
      (fun _ => .inl) (.inl rfl) (fun _ => rfl) ?_
    obtain ⟨notPending, notProcessing⟩ := Txn.not_waiting refused
    show (s.txns t).processing = .processed
    cases is : (s.txns t).processing with
    | new => exact absurd is started
    | pending => exact absurd is notPending
    | processing => exact absurd is notProcessing
    | processed => rfl
    | timedOut => exact absurd is waits

theorem collect {id : ContextId} (here : s.At k (.answered id t)) : (s.collect k id t).Kept := by
  have taken : s.act k (.answered id t) .collect = some (s.collect k id t) := rfl
  have lawful := (acted_effect inv here taken).lawful inv
  clear taken
  have done : (s.txns t).processing = .processed := kept.carries _ here.mem
  obtain ⟨listed, calls⟩ := (inv.fits _ here.mem).owner t rfl
  have below := inv.lt_allocated (parties_of_mem listed)
  have call : id = (s.txns t).contextId := by
    simp only [Thread.context, Option.ite_none_left_eq_some, Option.some.injEq] at calls
    exact calls.2
  unfold State.collect at lawful ⊢
  split
  · rename_i ok
    rw [if_pos ok] at lawful
    refine kept.walk inv lawful here rfl rfl rfl (fun _ => .refl _) rfl ?_
      (fun _ => .inl) (.inl rfl) (fun _ => rfl) ?_
    · intro r member
      refine (List.mem_append.mp member).imp_right fun single => ?_
      rw [List.mem_singleton.mp single]
      exact kept.outcome t below ⟨done, ok⟩
    · intro _ i member same
      have is : i = t := inv.distinct t listed i member (Thread.context_ne_any calls)
        (same.trans call)
      rw [is]
      exact ⟨done, ok⟩
  · rename_i failed
    rw [if_neg failed] at lawful
    exact kept.walk inv lawful here rfl rfl rfl (fun _ => .refl _) rfl (fun _ => .inl)
      (fun _ => .inl) (.inl rfl) (fun _ => rfl) ⟨failed, .inr ⟨done, failed⟩⟩

theorem dequeue {id : ContextId} {errno : Int} (here : s.At k (.failing id t errno)) :
    ((s.dequeueTxn t).goto k (.dequeued id t errno)).Kept := by
  obtain ⟨failed, either⟩ := kept.carries _ here.mem
  have listed := ((inv.fits _ here.mem).owner t rfl).1
  have unawaited : (s.txns t).processing ≠ .pending ∧ (s.txns t).processing ≠ .processing := by
    rcases either with is | ⟨is, _⟩
    · rw [is]
      exact ⟨by simp, by simp⟩
    · rw [is]
      exact ⟨by simp, by simp⟩
  have undue : ∀ o, s.due o t = 0 := by
    intro o
    refine if_neg fun delivered => ?_
    rcases either with is | ⟨_, error⟩
    · rw [delivered.1] at is
      cases is
    · exact error delivered.2
  unfold dequeueTxn
  rw [if_pos (inv.queued t listed)]
  exact kept.takeOff here listed rfl rfl rfl rfl ⟨rfl, rfl, rfl, rfl, rfl, rfl⟩ (.inr unawaited) rfl
    (fun o => (congrArg (0 + ·) (undue o)).symm) failed

theorem withdraw {ok : Bool} (here : s.At k (.withdrawing t ok)) :
    ((s.dequeueTxn t).goto k (.dropping t ok)).Kept := by
  have fits := inv.fits _ here.mem
  have release := fits.withdrawing t ok rfl
  have listed := (fits.picker t rfl).2.2 release
  have undue : ∀ o, s.due o t = 0 := by
    intro o
    unfold due
    rw [kept.releases t (inv.lt_allocated (parties_of_mem listed)) release]
    split <;> rfl
  unfold dequeueTxn
  rw [if_pos (inv.queued t listed)]
  exact kept.takeOff here listed rfl rfl rfl rfl ⟨rfl, rfl, rfl, rfl, rfl, rfl⟩ (.inl release) rfl
    (fun o => (congrArg (0 + ·) (undue o)).symm) trivial

theorem dequeueById {id : ContextId} {errno : Int} {status : Bool}
    (here : s.At k (.returned id errno)) : (s.dequeueById k id status).Kept := by
  have taken : s.act k (.returned id errno) (.notify status) = some (s.dequeueById k id status) := rfl
  have lawful := (acted_effect inv here taken).lawful inv
  clear taken
  have call : id ≠ contextIdAny := of_decide_eq_false (inv.strays _ here.mem)
  unfold State.dequeueById at lawful ⊢
  split
  · rename_i t found
    have listed := List.mem_of_find?_eq_some found
    have same : (s.txns t).contextId = id := by simpa using List.find?_some found
    -- the transaction is on the list for this thread, which has returned success then
    have ok : errno = 0 := by
      have claimed := inv.claimed t listed
      unfold Claimed at claimed
      rw [same, if_neg call] at claimed
      obtain ⟨thread, member, calls, kept⟩ := claimed
      obtain ⟨j, there⟩ := List.getElem?_of_mem member
      by_cases apart : j = k
      · subst apart
        have is : thread = .returned id errno := Option.some.inj (there.symm.trans here)
        rcases kept with owns | ⟨id', is'⟩
        · rw [is] at owns
          cases owns
        · rw [is] at is'
          cases is'
          rfl
      · exact absurd (if_neg call) (claim_ne_of_nodup here there apart inv.contexts calls)
    have delivered : (s.txns t).delivered := kept.carries _ here.mem ok t listed same
    refine kept.takeOff here listed rfl rfl rfl rfl ⟨rfl, rfl, rfl, rfl, rfl, rfl⟩ (.inr ?_) rfl ?_
      delivered
    · rw [delivered.1]
      exact ⟨by simp, by simp⟩
    · intro o
      have due : s.due o t = (gotten (s.txns t).args.oo).count o := if_pos delivered
      rw [due]
      exact (Nat.zero_add _).symm
  · rename_i none
    rw [none] at lawful
    exact kept.walk inv lawful here rfl rfl rfl (fun _ => .refl _) rfl (fun _ => .inl)
      (fun _ => .inl) (.inr rfl) (fun _ => rfl) trivial

theorem notify {id : ContextId} {status : Bool} (here : s.At k (.notifying id t status)) :
    ((s.notify t status).goto k .idle).Kept := by
  have taken : s.act k (.notifying id t status) .put = some ((s.notify t status).goto k .idle) := rfl
  refine kept.walk inv ((acted_effect inv here taken).lawful inv) here rfl rfl rfl ?_ rfl
    (fun _ => .inl) (fun _ => .inl) (.inl rfl) ?_ trivial
  · exact putTxn_alike s t
  · intro o
    have split := notify_count status (s.txns t).args.oo o
    have owes : s.owes o (.notifying id t status) = (gotten (s.txns t).args.oo).count o := rfl
    show s.taken.count o + _ + _ + _ = s.taken.count o + (s.released ++ _).count o +
      (s.handed ++ _).count o + 0
    rw [List.count_append, List.count_append]
    omega

theorem settle {own : List Object} {errno : Int} {accepted : Bool}
    (here : s.At k (.settling t own errno accepted)) : (s.settle k t own errno accepted).Kept := by
  have taken : s.act k (.settling t own errno accepted) .settle =
      some (s.settle k t own errno accepted) := rfl
  have lawful := (acted_effect inv here taken).lawful inv
  clear taken
  have carries := kept.carries _ here.mem
  unfold State.settle at lawful ⊢
  cases accepted with
  | true =>
    have alike : ∀ i, (s.txns i).Alike (((s.complete t).putTxn t).txns i) := fun i =>
      (complete_alike s t i).trans (putTxn_alike (s.complete t) t i)
    exact kept.walk inv lawful here rfl rfl rfl alike rfl (fun _ => .inl) (fun _ => .inl) (.inl rfl)
      (fun _ => rfl) trivial
  | false =>
    simp only [Bool.false_eq_true, if_false] at lawful ⊢
    by_cases ok : errno = 0
    · rw [if_pos ok] at lawful ⊢
      obtain ⟨_, objects⟩ := carries
      refine kept.walk inv lawful here rfl rfl rfl (putTxn_alike (s.undo t own) t) rfl
        (fun _ => .inl) ?_ (.inr rfl) ?_ trivial
      · intro r member
        refine (List.mem_append.mp member).imp_right fun single => ?_
        rw [List.mem_singleton.mp single]
        exact (objects ok).symm
      · intro o
        have owes : s.owes o (.settling t own errno false) = (gotten own).count o := if_pos ok
        show s.taken.count o + _ + _ + _ = s.taken.count o + (s.released ++ putAll _).count o +
          s.handed.count o + 0
        rw [List.count_append, putAll_eq, objects ok]
        omega
    · rw [if_neg ok] at lawful ⊢
      refine kept.walk inv lawful here rfl rfl rfl (putTxn_alike s t) rfl (fun _ => .inl)
        (fun _ => .inl) (.inr rfl) ?_ trivial
      intro o
      have owes : s.owes o (.settling t own errno false) = 0 := if_neg ok
      rw [owes]
      rfl

theorem pick (here : s.At k .accepting) (taken : s.pick k = some s') : s'.Kept := by
  have acted : s.act k .accepting .pick = some s' := taken
  have lawful := (acted_effect inv here acted).lawful inv
  clear acted
  unfold State.pick at taken
  split at taken
  · rename_i t found
    obtain ⟨listed, ready⟩ := mem_of_findTxn found
    have pending : (s.txns t).processing = .pending := of_decide_eq_true ready
    have set : ({ s.txns t with kref := (s.txns t).kref.get } : Txn).setState .processing =
        some { s.txns t with kref := (s.txns t).kref.get, processing := .processing } := by
      simp only [Txn.setState, pending, ne_eq, not_true_eq_false, if_false]
    dsimp only at taken
    rw [set, Option.getD_some] at taken
    cases taken
    have quiet : (s.txns t).Quiet
        { s.txns t with kref := (s.txns t).kref.get, processing := .processing } := by
      refine ⟨rfl, rfl, rfl, .inr ?_⟩
      rw [pending]
      exact ⟨by simp, by simp, by simp⟩
    have elsewhere : ∀ i, i ≠ t → update s.txns t
        { s.txns t with kref := (s.txns t).kref.get, processing := .processing } i = s.txns i :=
      fun i differs => update_of_ne differs ..
    refine kept.advance inv lawful here rfl rfl rfl (quiet_update quiet) ?_ ?_ rfl (fun _ => .inl)
      (fun _ => .inl) (.inl rfl) (fun _ => rfl) trivial
    · intro i new
      refine (congrArg Txn.processing (elsewhere i ?_)).trans new
      rintro rfl
      rw [pending] at new
      cases new
    · intro i timedOut
      by_cases same : i = t
      · have is : (update s.txns t
            { s.txns t with kref := (s.txns t).kref.get, processing := .processing } i).processing =
              .timedOut := timedOut
        rw [same, update_self] at is
        cases is
      · exact .inl ((congrArg Txn.processing (elsewhere i same)).symm.trans timedOut)
  · cases taken

theorem acted {act : Act} (here : s.At k a) (careful : Careful s (.thread k act))
    (taken : s.act k a act = some s') : s'.Kept := by
  have lawful := (acted_effect inv here taken).lawful inv
  unfold State.act at taken
  split at taken
  · split at taken
    · rename_i unused
      cases taken
      exact kept.alloc inv here fun release => absurd release unused.1
    · cases taken
  · cases taken
    exact kept.alloc inv here fun _ => rfl
  · cases taken
    exact kept.enqueue inv here
  · split at taken
    · cases taken
      exact kept.timeOut inv here
    · cases taken
  · cases taken
    exact kept.collect inv here
  · cases taken
    exact kept.dequeue inv here
  · rename_i id t errno
    cases taken
    have failed : errno ≠ 0 := kept.carries _ here.mem
    refine kept.walk inv lawful here rfl rfl rfl (putTxn_alike s t) rfl (fun _ => .inl)
      (fun _ => .inl) (.inr ?_) (fun _ => ?_) ?_
    · split <;> rfl
    · split <;> rfl
    · split
      · trivial
      · exact fun ok => absurd ok failed
  · cases taken
    exact kept.dequeueById inv here
  · split at taken
    · cases taken
    · cases taken
      exact kept.walk inv lawful here rfl rfl rfl (fun _ => .refl _) rfl (fun _ => .inl)
        (fun _ => .inl) (.inl rfl) (fun _ => rfl) trivial
  · cases taken
    exact kept.notify inv here
  · split at taken
    · cases taken
    · cases taken
      exact kept.walk inv lawful here rfl rfl rfl (fun _ => .refl _) rfl (fun _ => .inl)
        (fun _ => .inl) (.inl rfl) (fun _ => rfl) trivial
  · split at taken
    · cases taken
    · cases taken
      unfold respond at lawful ⊢
      split
      · rename_i none
        rw [if_pos none] at lawful
        exact kept.walk inv lawful here rfl rfl rfl (fun _ => .refl _) rfl (fun _ => .inl)
          (fun _ => .inl) (.inl rfl) (fun _ => rfl) trivial
      · rename_i some
        rw [if_neg some] at lawful
        split
        · rename_i t found
          rw [found] at lawful
          have one : (s.txns t).Alike { s.txns t with kref := (s.txns t).kref.get } :=
            ⟨rfl, rfl, rfl, rfl⟩
          exact kept.walk inv lawful here rfl rfl rfl (alike_update one) rfl (fun _ => .inl)
            (fun _ => .inl) (.inl rfl) (fun _ => rfl) trivial
        · rename_i missed
          rw [missed] at lawful
          exact kept.walk inv lawful here rfl rfl rfl (fun _ => .refl _) rfl (fun _ => .inl)
            (fun _ => .inl) (.inl rfl) (fun _ => rfl) trivial
  · rename_i t r
    cases taken
    have into : t ∈ s.threads[k]?.bind Thread.parsesInto := by
      have at_ : s.threads[k]? = some (.parsing t r) := here
      rw [at_]
      rfl
    obtain ⟨pending, alone⟩ := careful k rfl t into
    exact kept.parse inv here pending alone
  · cases taken
    exact kept.submit inv here
  · cases taken
    exact kept.settle inv here
  · cases taken
    exact kept.walk inv lawful here rfl rfl rfl (fun _ => .refl _) rfl (fun _ => .inl)
      (fun _ => .inl) (.inl rfl) (fun _ => rfl) trivial
  · exact kept.pick inv here taken
  · rename_i t ok
    cases taken
    unfold construct at lawful ⊢
    split
    · rename_i release
      rw [if_pos release] at lawful
      exact kept.walk inv lawful here rfl rfl rfl (fun _ => .refl _) rfl (fun _ => .inl)
        (fun _ => .inl) (.inl rfl) (fun _ => rfl) trivial
    · rename_i call
      rw [if_neg call] at lawful
      cases ok with
      | true =>
        exact kept.walk inv lawful here rfl rfl rfl (fun _ => .refl _) rfl (fun _ => .inl)
          (fun _ => .inl) (.inl rfl) (fun _ => rfl) trivial
      | false =>
        exact kept.walk inv lawful here rfl rfl rfl (complete_alike s t) rfl (fun _ => .inl)
          (fun _ => .inl) (.inl rfl) (fun _ => rfl) trivial
  · cases taken
    exact kept.withdraw inv here
  · rename_i t ok
    cases taken
    exact kept.walk inv lawful here rfl rfl rfl (putTxn_alike s t) rfl (fun _ => .inl)
      (fun _ => .inl) (.inl rfl) (fun _ => rfl) trivial
  · rename_i t ok
    cases taken
    cases ok with
    | true =>
      exact kept.walk inv lawful here rfl rfl rfl (putTxn_alike s t) rfl (fun _ => .inl)
        (fun _ => .inl) (.inl rfl) (fun _ => rfl) trivial
    | false =>
      exact kept.walk inv lawful here rfl rfl rfl (putTxn_alike s t) rfl (fun _ => .inl)
        (fun _ => .inl) (.inl rfl) (fun _ => rfl) trivial
  · cases taken

omit inv in
theorem shrink (threads : s'.threads = s.threads) (allocated : s'.allocated = s.allocated)
    (alike : ∀ t, (s.txns t).Alike (s'.txns t))
    (logs : s'.taken = s.taken ∧ s'.released = s.released ∧ s'.handed = s.handed ∧
      s'.accepted = s.accepted ∧ s'.succeeded = s.succeeded ∧ s'.undone = s.undone)
    (shrinks : ∀ t ∈ s'.queue, t ∈ s.queue)
    (stays : ∀ t ∈ s.queue, (s.txns t).contextId ≠ contextIdAny → t ∈ s'.queue)
    (dues : ∀ o, (s'.queue.map (s.due o)).sum = (s.queue.map (s.due o)).sum) : s'.Kept := by
  obtain ⟨taken, released, handed, accepted, succeeded, undone⟩ := logs
  exact {
    releases := by
      intro t below release
      rw [(alike t).contextId] at release
      rw [(alike t).oo]
      exact kept.releases t (allocated ▸ below) release
    awaited := by
      intro t below call waits
      rw [(alike t).contextId] at call
      rw [(alike t).processing] at waits
      exact stays t (kept.awaited t (allocated ▸ below) call waits) call
    carries := by
      rw [threads]
      intro thread member
      exact carries_congr (fun t member => .inl (shrinks t member)) (fun t _ => (alike t).quiet)
        (fun t _ timedOut => (alike t).processing ▸ timedOut) (kept.carries thread member)
    single := threads ▸ kept.single
    outcome := by
      intro t below delivered
      rw [(alike t).oo, accepted]
      exact kept.outcome t (allocated ▸ below) ((alike t).quiet.delivered_iff.mp delivered)
    once := accepted ▸ kept.once
    final := by
      intro r member
      obtain ⟨below, done⟩ := kept.final r (accepted ▸ member)
      exact ⟨allocated ▸ below, (alike r.1).processing.trans done⟩
    succeeded := by
      rw [succeeded, accepted]
      exact kept.succeeded
    undone := undone ▸ kept.undone
    balance := by
      intro o
      have weighs : s'.owes o = s.owes o := by
        funext thread
        exact owes_congr fun _ t _ _ => (alike t).oo
      have due : s'.due o = s.due o := by
        funext t
        exact due_congr (alike t).quiet
      have before := kept.balance o
      unfold owed at before ⊢
      rw [threads, weighs, due, dues, taken, released, handed]
      exact before }

omit inv in
theorem terminate (listed : t ∈ s.queue) : (s.terminate t).Kept := by
  have same : ∀ s' : State, s'.threads = s.threads → s'.allocated = s.allocated →
      (∀ i, (s.txns i).Alike (s'.txns i)) → s'.queue = s.queue →
      (s'.taken = s.taken ∧ s'.released = s.released ∧ s'.handed = s.handed ∧
        s'.accepted = s.accepted ∧ s'.succeeded = s.succeeded ∧ s'.undone = s.undone) → s'.Kept :=
    fun s' threads allocated alike queue logs => kept.shrink threads allocated alike logs
      (fun _ member => queue ▸ member) (fun _ member _ => queue ▸ member) fun _ => by rw [queue]
  have logs : s.taken = s.taken ∧ s.released = s.released ∧ s.handed = s.handed ∧
      s.accepted = s.accepted ∧ s.succeeded = s.succeeded ∧ s.undone = s.undone :=
    ⟨rfl, rfl, rfl, rfl, rfl, rfl⟩
  unfold State.terminate
  split
  · split
    · rename_i release
      split
      · rename_i pending
        have one : (s.txns t).Alike { s.txns t with kref := (s.txns t).kref.free } :=
          ⟨rfl, rfl, rfl, rfl⟩
        refine kept.shrink rfl rfl (alike_update one) logs (fun _ => List.mem_of_mem_erase) ?_ ?_
        · intro i member call
          refine (List.mem_erase_of_ne ?_).mpr member
          rintro rfl
          exact call release
        · intro o
          have undue : s.due o t = 0 := due_of_pending (by rw [pending]; simp)
          have sum := sum_due_erase (o := o) listed
          show ((s.queue.erase t).map (s.due o)).sum = _
          omega
      · exact same _ rfl rfl (fun _ => .refl _) rfl logs
    · exact same _ rfl rfl (complete_alike s t) rfl logs
  · exact same _ rfl rfl (fun _ => .refl _) rfl logs

theorem foldl_terminate {ts : List Nat} (quiet : ∀ thread ∈ s.threads, thread.serving = false)
    (nodup : ts.Nodup) (listed : ∀ t ∈ ts, t ∈ s.queue) : (ts.foldl State.terminate s).Kept := by
  induction ts generalizing s with
  | nil => exact kept
  | cons t ts ih =>
    have here : t ∈ s.queue := listed t (List.mem_cons_self ..)
    obtain ⟨absent, nodup⟩ := List.nodup_cons.mp nodup
    refine ih (kept.terminate here) (inv.terminate quiet here) ?_ nodup fun i member => ?_
    · rwa [terminate_threads]
    · exact mem_terminate (fun is => absent (is ▸ member))
        (listed i (List.mem_cons_of_mem _ member))

theorem step {move : Move} (careful : Careful s move) (taken : step s move = some s') :
    s'.Kept := by
  unfold Smci.step at taken
  split at taken
  · split at taken
    · rename_i here
      exact kept.acted inv here careful taken
    · cases taken
  · split at taken
    · rename_i closing
      cases taken
      have quiet : ∀ thread ∈ s.threads, thread.serving = false := fun thread member => by
        simpa using List.all_eq_true.mp closing.2 thread member
      have closed := kept.foldl_terminate inv quiet inv.nodup fun _ member => member
      unfold serverRelease
      rw [foldl_terminate_kill]
      exact closed.shrink rfl rfl (fun _ => .refl _) ⟨rfl, rfl, rfl, rfl, rfl, rfl⟩
        (fun _ member => member) (fun _ member _ => member) fun _ => rfl
    · cases taken

end Kept

theorem Kept.start (n : Nat) : State.Kept { threads := List.replicate n .idle } := by
  have idle : ∀ thread ∈ List.replicate n Thread.idle, thread = .idle :=
    fun _ member => List.eq_of_mem_replicate member
  exact {
    releases := fun t below => absurd below (Nat.not_lt_zero t)
    awaited := fun t below => absurd below (Nat.not_lt_zero t)
    carries := by
      intro thread member
      rw [idle thread member]
      trivial
    single := by
      have free : (List.replicate n Thread.idle).filterMap Thread.unsettled = [] :=
        List.filterMap_eq_nil_iff.mpr fun thread member => by
          rw [idle thread member]
          rfl
      show ((List.replicate n Thread.idle).filterMap Thread.unsettled).Nodup
      rw [free]
      exact List.nodup_nil
    outcome := fun t below => absurd below (Nat.not_lt_zero t)
    once := List.nodup_nil
    final := fun _ member => absurd member List.not_mem_nil
    succeeded := fun _ member => absurd member List.not_mem_nil
    undone := fun _ member => absurd member List.not_mem_nil
    balance := by
      intro o
      show 0 = 0 + 0 + (((List.replicate n Thread.idle).map (owes _ o)).sum + 0)
      rw [List.map_replicate, List.sum_replicate_nat]
      rfl }

theorem Kept.of_reachable (reached : Reachable Initial (StepOf Smci.step Careful) s) : s.Kept := by
  induction reached with
  | start initial =>
    obtain ⟨n, rfl⟩ := initial
    exact Kept.start n
  | next before taken ih =>
    obtain ⟨move, careful, taken⟩ := taken
    exact ih.step (Inv.of_reachable before) careful taken

/-- Every reference taken while parsing is put, left to the secure world or owed, and none is
owed at the end. A call that returns success hands over the objects of the one accepted
response, and a response is undone by putting its own. -/
structure Settles (s : State) : Prop where
  balance : ∀ o, s.taken.count o = s.released.count o + s.handed.count o + s.owed o
  through : (∀ thread ∈ s.threads, thread = .idle) →
    ∀ o, s.taken.count o = s.released.count o + s.handed.count o
  succeeded : ∀ r ∈ s.succeeded, r ∈ s.accepted
  once : (s.accepted.map Prod.fst).Nodup
  undone : ∀ r ∈ s.undone, r.1 = r.2

theorem Kept.settles (kept : s.Kept) (inv : s.Inv) : s.Settles where
  balance := kept.balance
  through := by
    intro idle o
    have threads : (s.threads.map (s.owes o)).sum = 0 := by
      rw [List.sum_eq_zero_iff_forall_eq_nat]
      intro n member
      obtain ⟨thread, there, rfl⟩ := List.mem_map.mp member
      rw [idle thread there]
      rfl
    have queue : (s.queue.map (s.due o)).sum = 0 := by
      rw [List.sum_eq_zero_iff_forall_eq_nat]
      intro n member
      obtain ⟨t, listed, rfl⟩ := List.mem_map.mp member
      -- without a call, what is on the list is a release request
      have release : (s.txns t).contextId = contextIdAny := by
        by_contra call
        have claimed := inv.claimed t listed
        unfold Claimed at claimed
        rw [if_neg call] at claimed
        obtain ⟨thread, there, calls, _⟩ := claimed
        rw [idle thread there] at calls
        cases calls
      unfold due
      rw [kept.releases t (inv.lt_allocated (parties_of_mem listed)) release]
      split <;> rfl
    have balance := kept.balance o
    unfold owed at balance
    omega
  succeeded := kept.succeeded
  once := kept.once
  undone := kept.undone

end State

/-- In runs in which no response is parsed into a transaction that has another one in it, no
reference of a response is lost or put twice. -/
theorem objects_settled (s : State) (reached : Reachable Initial (StepOf step Careful) s) :
    s.Settles :=
  (State.Kept.of_reachable reached).settles
    (State.Inv.of_reachable reached)

def answerMoves (first second : List Act) : List Move :=
  let response (n : Nat) : Response :=
    { txnId := 1, result := 0, args := some fun _ => ⟨0, true, some (.callback n)⟩ }
  [.thread 0 (.dispatch 1 { oo := [.null] } true), .thread 0 .queue, .thread 1 (.accept none),
    .thread 1 .pick, .thread 1 (.construct true), .thread 1 .put,
    .thread 1 (.accept (some (response 7))), .thread 2 (.accept (some (response 8)))] ++
    first.map (.thread 1) ++ second.map (.thread 2)

/-- The first server thread answers, the call is killed, and the second server thread is too
late. -/
def lateMoves : List Move :=
  answerMoves [.parse] [] ++ [.thread 0 (.wake true)] ++
    [Act.submit, .settle].map (.thread 1) ++ [Act.parse, .submit, .settle].map (.thread 2)

theorem lateMoves_run :
    (play step Careful { threads := [.idle, .idle, .idle] } lateMoves).isSome := by
  decide +kernel

def late : State :=
  (play step Careful { threads := [.idle, .idle, .idle] } lateMoves).get lateMoves_run

theorem late_settled : late.released.count (.callback 7) = 2 ∧ late.released.count (.callback 8) = 2 ∧
    late.Settles := by
  have start : Reachable Initial (StepOf step Careful) { threads := [.idle, .idle, .idle] } :=
    .start ⟨3, rfl⟩
  exact ⟨by decide +kernel, by decide +kernel,
    objects_settled late (play_reachable start lateMoves_run)⟩

def crossedMoves : List Move :=
  answerMoves [.parse] [.parse] ++ [Act.submit, .settle].map (.thread 1) ++
    [Act.submit, .settle].map (.thread 2) ++ [Act.wake false, .collect].map (.thread 0)

theorem crossedMoves_run :
    (play step (fun _ _ => True) { threads := [.idle, .idle, .idle] } crossedMoves).isSome := by
  decide +kernel

def crossed : State :=
  (play step (fun _ _ => True) { threads := [.idle, .idle, .idle] } crossedMoves).get crossedMoves_run

/-- The call returns the object of the response that was not accepted, which has been put. -/
theorem crossed_unsettled :
    ¬∀ s, Reachable Initial (StepOf step fun _ _ => True) s → s.Settles := by
  intro settles
  have start : Reachable Initial (StepOf step fun _ _ => True)
      { threads := [.idle, .idle, .idle] } := .start ⟨3, rfl⟩
  have settled := settles crossed (play_reachable start crossedMoves_run)
  have returned : (0, [Object.callback 8]) ∈ crossed.succeeded := by decide +kernel
  exact absurd (settled.succeeded _ returned) (by decide +kernel)

end VendorModules.Smci
