import VendorModules.Smci.Lifetimes

/-! The references to the objects of responses, in runs where no response is parsed into a
transaction that has another one in it. -/

namespace VendorModules.Smci

open Function Lib

/-- The transaction that the thread has parsed its response into, as long as it may have to undo
that. -/
def Thread.unsettled : Thread → Option Nat
  | submitting t _ _ | settling t _ _ false => some t
  | _ => none

def Thread.parsesInto : Thread → Option Nat
  | parsing t _ => some t
  | _ => none

def Move.parsedBy : Move → Option Nat
  | .thread k .parse => some k
  | _ => none

/-- A response is parsed only into a transaction that has none: it has not been processed, and no
other server thread has parsed one that it still may undo. -/
def Careful (s : State) (move : Move) : Prop :=
  ∀ k ∈ move.parsedBy, ∀ t ∈ s.threads[k]?.bind Thread.parsesInto,
    (s.txns t).processing ≠ .processed ∧ ∀ thread ∈ s.threads, thread.unsettled ≠ some t

instance (s : State) (move : Move) : Decidable (Careful s move) :=
  inferInstanceAs (Decidable (∀ k ∈ move.parsedBy, ∀ t ∈ s.threads[k]?.bind Thread.parsesInto, _))

structure Txn.Quiet (x x' : Txn) : Prop where
  contextId : x'.contextId = x.contextId
  oo : x'.args.oo = x.args.oo
  errno : x'.errno = x.errno
  processing : x'.processing = x.processing ∨
    x.processing ≠ .processed ∧ x.processing ≠ .timedOut ∧ x'.processing ≠ .processed

structure Txn.Alike (x x' : Txn) : Prop where
  contextId : x'.contextId = x.contextId
  oo : x'.args.oo = x.args.oo
  errno : x'.errno = x.errno
  processing : x'.processing = x.processing

theorem Txn.Alike.refl (x : Txn) : x.Alike x := ⟨rfl, rfl, rfl, rfl⟩

theorem Txn.Alike.quiet {x x' : Txn} (alike : x.Alike x') : x.Quiet x' :=
  ⟨alike.contextId, alike.oo, alike.errno, .inl alike.processing⟩

theorem Txn.Alike.trans {x x' x'' : Txn} (first : x.Alike x') (second : x'.Alike x'') :
    x.Alike x'' :=
  ⟨second.contextId.trans first.contextId, second.oo.trans first.oo,
    second.errno.trans first.errno, second.processing.trans first.processing⟩

theorem Txn.Quiet.refl (x : Txn) : x.Quiet x := ⟨rfl, rfl, rfl, .inl rfl⟩

def Txn.delivered (x : Txn) : Prop := x.processing = .processed ∧ x.errno = 0

instance (x : Txn) : Decidable x.delivered := inferInstanceAs (Decidable (_ ∧ _))

theorem Txn.Quiet.delivered_iff {x x' : Txn} (quiet : x.Quiet x') : x'.delivered ↔ x.delivered := by
  unfold Txn.delivered
  rw [quiet.errno]
  rcases quiet.processing with same | ⟨before, _, after⟩
  · rw [same]
  · exact ⟨fun done => absurd done.1 after, fun done => absurd done.1 before⟩

theorem Response.parse_count (r : Response) (u : Args) (o : Object) :
    (r.parse u).2.taken.count o = (r.parse u).2.released.count o +
      if (r.parse u).1 = 0 then (gotten (r.parse u).2.args.oo).count o else 0 := by
  unfold Response.parse
  split
  · split
    · rfl
    · rename_i args _
      have taken := congrArg (List.count o) (marshalOutCbReq_taken u args)
      rw [List.count_append] at taken
      unfold MarshalOut.kept at taken
      by_cases failed : (marshalOutCbReq u args).failed = true
      · rw [if_pos failed] at taken
        simpa [failed, EINVAL] using taken
      · rw [if_neg failed] at taken
        simpa [failed] using taken
  · rfl

theorem Response.parse_oo (r : Response) {u : Args} (none : u.oo = []) :
    (r.parse u).2.args.oo = [] := by
  unfold Response.parse
  split
  · split
    · exact none
    · exact marshalOutCbReq_oo _ none
  · exact none

namespace State

def owes (s : State) (o : Object) : Thread → Nat
  | .submitting _ own errno | .settling _ own errno false =>
    if errno = 0 then (gotten own).count o else 0
  | .notifying _ t _ => (gotten (s.txns t).args.oo).count o
  | _ => 0

def due (s : State) (o : Object) (t : Nat) : Nat :=
  if (s.txns t).delivered then (gotten (s.txns t).args.oo).count o else 0

def owed (s : State) (o : Object) : Nat :=
  (s.threads.map (s.owes o)).sum + (s.queue.map (s.due o)).sum

def Carries (s : State) : Thread → Prop
  | .submitting t own errno => (s.txns t).processing ≠ .processed ∧ (s.txns t).errno = errno ∧
      (errno = 0 → (s.txns t).args.oo = own)
  | .settling t own errno false => (s.txns t).processing ≠ .processed ∧
      (errno = 0 → (s.txns t).args.oo = own)
  | .waiting _ t => (s.txns t).processing ≠ .timedOut
  | .answered _ t => (s.txns t).processing = .processed
  | .failing _ t errno => errno ≠ 0 ∧ ((s.txns t).processing = .timedOut ∨
      ((s.txns t).processing = .processed ∧ (s.txns t).errno ≠ 0))
  | .dequeued _ _ errno => errno ≠ 0
  | .returned id errno => errno = 0 → ∀ t ∈ s.queue, (s.txns t).contextId = id →
      (s.txns t).delivered
  | .notifying _ t _ => (s.txns t).delivered
  | _ => True

structure Kept (s : State) : Prop where
  releases : ∀ t < s.allocated, (s.txns t).contextId = contextIdAny → (s.txns t).args.oo = []
  awaited : ∀ t < s.allocated, (s.txns t).contextId ≠ contextIdAny →
    (s.txns t).processing = .pending ∨ (s.txns t).processing = .processing → t ∈ s.queue
  carries : ∀ thread ∈ s.threads, s.Carries thread
  single : (s.threads.filterMap Thread.unsettled).Nodup
  outcome : ∀ t < s.allocated, (s.txns t).delivered → (t, (s.txns t).args.oo) ∈ s.accepted
  once : (s.accepted.map Prod.fst).Nodup
  final : ∀ r ∈ s.accepted, r.1 < s.allocated ∧ (s.txns r.1).processing = .processed
  succeeded : ∀ r ∈ s.succeeded, r ∈ s.accepted
  undone : ∀ r ∈ s.undone, r.1 = r.2
  balance : ∀ o, s.taken.count o = s.released.count o + s.handed.count o + s.owed o

variable {s s' : State} {k t : Nat} {a b thread : Thread} {x : Txn} {o : Object}

theorem quiet_update (quiet : (s.txns t).Quiet x) (i : Nat) :
    (s.txns i).Quiet (update s.txns t x i) := by
  rw [update_apply]
  split
  · rename_i same
    rw [same]
    exact quiet
  · exact .refl _

theorem owes_congr (same : ∀ id t status, thread = .notifying id t status →
    (s'.txns t).args.oo = (s.txns t).args.oo) : s'.owes o thread = s.owes o thread := by
  cases thread with
  | notifying id t status =>
    show (gotten (s'.txns t).args.oo).count o = _
    rw [same id t status rfl]
    rfl
  | settling t own errno accepted => cases accepted <;> rfl
  | _ => rfl

theorem sum_due_erase (member : t ∈ s.queue) :
    ((s.queue.erase t).map (s.due o)).sum + s.due o t = (s.queue.map (s.due o)).sum := by
  rw [((List.perm_cons_erase member).map (s.due o)).sum_eq, List.map_cons, List.sum_cons]
  omega

theorem due_congr (quiet : (s.txns t).Quiet (s'.txns t)) : s'.due o t = s.due o t := by
  unfold due
  simp only [quiet.delivered_iff, quiet.oo]

/-- Of no matter to a thread is what happens to transactions that it has no reference to, and that
are not on the list. -/
theorem carries_congr (queue : ∀ t ∈ s'.queue,
      t ∈ s.queue ∨ ∀ errno, thread ≠ .returned (s'.txns t).contextId errno)
    (quiet : ∀ t, 0 < thread.holds t ∨ thread.owner = some t ∨ t ∈ s.queue →
      (s.txns t).Quiet (s'.txns t))
    (expires : ∀ t, thread.owner = some t → (s'.txns t).processing = .timedOut →
      (s.txns t).processing = .timedOut) (carries : s.Carries thread) : s'.Carries thread := by
  have still : ∀ t, (s.txns t).Quiet (s'.txns t) → (s.txns t).processing = .processed →
      (s'.txns t).processing = .processed := by
    intro t quiet done
    rcases quiet.processing with same | ⟨before, _⟩
    · rw [same, done]
    · exact absurd done before
  have yet : ∀ t, (s.txns t).Quiet (s'.txns t) → (s.txns t).processing ≠ .processed →
      (s'.txns t).processing ≠ .processed := by
    intro t quiet pending
    rcases quiet.processing with same | ⟨_, _, after⟩
    · rwa [same]
    · exact after
  cases thread with
  | submitting t own errno =>
    have quiet := quiet t (.inl (by simp [Thread.holds]))
    obtain ⟨pending, result, objects⟩ := carries
    exact ⟨yet t quiet pending, quiet.errno.trans result, fun ok => quiet.oo.trans (objects ok)⟩
  | settling t own errno accepted =>
    cases accepted with
    | true => trivial
    | false =>
      have quiet := quiet t (.inl (by simp [Thread.holds]))
      obtain ⟨pending, objects⟩ := carries
      exact ⟨yet t quiet pending, fun ok => quiet.oo.trans (objects ok)⟩
  | waiting id t => exact fun timedOut => carries (expires t rfl timedOut)
  | answered id t => exact still t (quiet t (.inr (.inl rfl))) carries
  | failing id t errno =>
    have quiet := quiet t (.inr (.inl rfl))
    obtain ⟨failed, either⟩ := carries
    refine ⟨failed, ?_⟩
    rcases either with timedOut | ⟨done, failed⟩
    · refine .inl ?_
      rcases quiet.processing with same | ⟨_, before, _⟩
      · rw [same, timedOut]
      · exact absurd timedOut before
    · refine .inr ⟨still t quiet done, ?_⟩
      rwa [quiet.errno]
  | dequeued id t errno => exact carries
  | returned id errno =>
    intro ok t member call
    rcases queue t member with listed | other
    · have quiet := quiet t (.inr (.inr listed))
      rw [quiet.contextId] at call
      exact quiet.delivered_iff.mpr (carries ok t listed call)
    · exact absurd (call ▸ rfl) (other errno)
  | notifying id t status =>
    exact (quiet t (.inl (by simp [Thread.holds]))).delivered_iff.mpr carries
  | _ => trivial

/-- While a transaction has not been processed, its objects matter only to a thread that has parsed
them. -/
theorem carries_of_unsettled (others : ∀ i, i ≠ t → s'.txns i = s.txns i)
    (contextId : (s'.txns t).contextId = (s.txns t).contextId) (queue : s'.queue = s.queue)
    (pending : (s.txns t).processing ≠ .processed)
    (expires : (s'.txns t).processing = .timedOut ↔ (s.txns t).processing = .timedOut)
    (apart : thread.unsettled ≠ some t) (carries : s.Carries thread) : s'.Carries thread := by
  cases thread with
  | submitting i own errno =>
    have differs : i ≠ t := fun same => apart (same ▸ rfl)
    show (s'.txns i).processing ≠ _ ∧ (s'.txns i).errno = _ ∧ (_ → (s'.txns i).args.oo = _)
    rw [others i differs]
    exact carries
  | settling i own errno accepted =>
    cases accepted with
    | true => trivial
    | false =>
      have differs : i ≠ t := fun same => apart (same ▸ rfl)
      show (s'.txns i).processing ≠ _ ∧ (_ → (s'.txns i).args.oo = _)
      rw [others i differs]
      exact carries
  | waiting id i =>
    show (s'.txns i).processing ≠ _
    by_cases same : i = t
    · subst same
      exact fun timedOut => carries (expires.mp timedOut)
    · rw [others i same]
      exact carries
  | answered id i =>
    show (s'.txns i).processing = _
    rw [others i]
    · exact carries
    · rintro rfl
      exact pending carries
  | failing id i errno =>
    show _ ∧ ((s'.txns i).processing = _ ∨ (s'.txns i).processing = _ ∧ (s'.txns i).errno ≠ _)
    by_cases same : i = t
    · subst same
      refine ⟨carries.1, .inl (expires.mpr ?_)⟩
      exact carries.2.resolve_right fun done => pending done.1
    · rw [others i same]
      exact carries
  | dequeued id i errno => exact carries
  | returned id errno =>
    intro ok i member call
    rw [queue] at member
    by_cases same : i = t
    · subst same
      rw [contextId] at call
      exact absurd (carries ok i member call).1 pending
    · rw [others i same] at call ⊢
      exact carries ok i member call
  | notifying id i status =>
    show (s'.txns i).delivered
    rw [others i]
    · exact carries
    · rintro rfl
      exact pending carries.1
  | _ => trivial

theorem due_of_pending (pending : (s.txns t).processing ≠ .processed) : s.due o t = 0 :=
  if_neg fun delivered => pending delivered.1

namespace Kept

variable (kept : s.Kept)
include kept

theorem awaits (lawful : s.Lawful s') (contextId : (s'.txns t).contextId = (s.txns t).contextId)
    (below : t < s.allocated) (call : (s'.txns t).contextId ≠ contextIdAny)
    (waits : (s'.txns t).processing = .pending ∨ (s'.txns t).processing = .processing) :
    t ∈ s.queue ∨ (s.txns t).processing = .new := by
  rw [contextId] at call
  have along := lawful.along t below
  generalize before : (s.txns t).processing = p at along
  generalize (s'.txns t).processing = p' at along waits
  cases along with
  | stay => exact .inl (kept.awaited t below call (before ▸ waits))
  | queue => exact .inr rfl
  | pick => exact .inl (kept.awaited t below call (.inl before))
  | respond => rcases waits with is | is <;> cases is
  | drop => rcases waits with is | is <;> cases is
  | timeOut => rcases waits with is | is <;> cases is

theorem advance (inv : s.Inv) (lawful : s.Lawful s') (here : s.At k a)
    (threads : s'.threads = s.threads.set k b) (queue : s'.queue = s.queue)
    (allocated : s'.allocated = s.allocated) (quiet : ∀ t, (s.txns t).Quiet (s'.txns t))
    (started : ∀ t, (s.txns t).processing = .new → (s'.txns t).processing = .new)
    (expires : ∀ t, (s'.txns t).processing = .timedOut →
      (s.txns t).processing = .timedOut ∨ a.owner = some t)
    (accepted : s'.accepted = s.accepted)
    (succeeded : ∀ r ∈ s'.succeeded, r ∈ s.succeeded ∨ r ∈ s.accepted)
    (undone : ∀ r ∈ s'.undone, r ∈ s.undone ∨ r.1 = r.2)
    (unsettled : b.unsettled = a.unsettled ∨ b.unsettled = none)
    (balance : ∀ o, s'.taken.count o + s.released.count o + s.handed.count o + s.owes o a =
      s.taken.count o + s'.released.count o + s'.handed.count o + s'.owes o b)
    (carries : s'.Carries b) : s'.Kept where
  releases := by
    intro t below release
    rw [(quiet t).contextId] at release
    rw [(quiet t).oo]
    exact kept.releases t (allocated ▸ below) release
  awaited := by
    intro t below call waits
    rw [queue]
    refine (kept.awaits lawful (quiet t).contextId (allocated ▸ below) call waits).resolve_right ?_
    intro new
    rw [started t new] at waits
    rcases waits with is | is <;> cases is
  carries := by
    rw [threads]
    refine forall_mem_set_of_apart carries fun j thread apart there => ?_
    refine carries_congr (fun _ member => .inl (queue ▸ member)) (fun t _ => quiet t)
      (fun t owns timedOut => ?_)
      (kept.carries thread (List.mem_of_getElem? there))
    refine (expires t timedOut).resolve_right fun ours => ?_
    exact inv.owner_unique here there apart ((inv.fits a here.mem).owner t ours).2 owns
  single := by
    rw [threads]
    exact nodup_filterMap_set kept.single here unsettled
  outcome := by
    intro t below delivered
    rw [(quiet t).oo, accepted]
    exact kept.outcome t (allocated ▸ below) ((quiet t).delivered_iff.mp delivered)
  once := accepted ▸ kept.once
  final := by
    intro r member
    obtain ⟨below, done⟩ := kept.final r (accepted ▸ member)
    rw [allocated]
    refine ⟨below, ?_⟩
    rcases (quiet r.1).processing with same | ⟨before, _⟩
    · rw [same, done]
    · exact absurd done before
  succeeded := by
    intro r member
    rw [accepted]
    exact (succeeded r member).elim (kept.succeeded r) id
  undone := by
    intro r member
    exact (undone r member).elim (kept.undone r) id
  balance := by
    intro o
    have sum := sum_map_set_add_of_apart (b := b) (s.owes o) (s'.owes o) here
      fun _ _ _ _ => owes_congr fun _ t _ _ => (quiet t).oo
    have dues : s'.queue.map (s'.due o) = s.queue.map (s.due o) := by
      rw [queue]
      exact List.map_congr_left fun t _ => due_congr (quiet t)
    have before := kept.balance o
    have change := balance o
    unfold owed at before ⊢
    rw [threads, dues]
    omega

theorem walk (inv : s.Inv) (lawful : s.Lawful s') (here : s.At k a)
    (threads : s'.threads = s.threads.set k b) (queue : s'.queue = s.queue)
    (allocated : s'.allocated = s.allocated)
    (alike : ∀ t, (s.txns t).Alike (s'.txns t)) (accepted : s'.accepted = s.accepted)
    (succeeded : ∀ r ∈ s'.succeeded, r ∈ s.succeeded ∨ r ∈ s.accepted)
    (undone : ∀ r ∈ s'.undone, r ∈ s.undone ∨ r.1 = r.2)
    (unsettled : b.unsettled = a.unsettled ∨ b.unsettled = none)
    (balance : ∀ o, s'.taken.count o + s.released.count o + s.handed.count o + s.owes o a =
      s.taken.count o + s'.released.count o + s'.handed.count o + s'.owes o b)
    (carries : s'.Carries b) : s'.Kept :=
  kept.advance inv lawful here threads queue allocated
    (fun t => (alike t).quiet) (fun t new => (alike t).processing.trans new)
    (fun t timedOut => .inl ((alike t).processing ▸ timedOut)) accepted succeeded undone unsettled balance carries

theorem takeOff (here : s.At k a) (listed : t ∈ s.queue)
    (threads : s'.threads = s.threads.set k b) (queue : s'.queue = s.queue.erase t)
    (allocated : s'.allocated = s.allocated) (txns : s'.txns = s.txns)
    (logs : s'.taken = s.taken ∧ s'.released = s.released ∧ s'.handed = s.handed ∧
      s'.accepted = s.accepted ∧ s'.succeeded = s.succeeded ∧ s'.undone = s.undone)
    (unawaited : (s.txns t).contextId = contextIdAny ∨
      ((s.txns t).processing ≠ .pending ∧ (s.txns t).processing ≠ .processing))
    (unsettled : b.unsettled = none) (owes : ∀ o, s.owes o b = s.owes o a + s.due o t)
    (carries : s.Carries b) : s'.Kept := by
  obtain ⟨taken, released, handed, accepted, succeeded, undone⟩ := logs
  have quiet : ∀ i, (s.txns i).Quiet (s'.txns i) := fun i => txns ▸ .refl _
  have shrinks : ∀ i ∈ s'.queue, i ∈ s.queue := fun i member =>
    List.mem_of_mem_erase (queue ▸ member)
  have still : ∀ thread : Thread, s.Carries thread → s'.Carries thread := fun thread carries =>
    carries_congr (fun i member => .inl (shrinks i member)) (fun i _ => quiet i) (fun i _ timedOut => txns ▸ timedOut) carries
  exact {
    releases := by
      rw [txns, allocated]
      exact kept.releases
    awaited := by
      rw [txns, allocated, queue]
      intro i below call waits
      refine (List.mem_erase_of_ne ?_).mpr (kept.awaited i below call waits)
      rintro rfl
      rcases unawaited with release | ⟨pending, processing⟩
      · exact call release
      · exact waits.elim pending processing
    carries := by
      rw [threads]
      exact forall_mem_set_of_apart (still b carries) fun _ thread _ there =>
        still thread (kept.carries thread (List.mem_of_getElem? there))
    single := by
      rw [threads]
      exact nodup_filterMap_set kept.single here (.inr unsettled)
    outcome := by
      rw [txns, allocated, accepted]
      exact kept.outcome
    once := accepted ▸ kept.once
    final := by
      rw [txns, allocated, accepted]
      exact kept.final
    succeeded := by
      rw [succeeded, accepted]
      exact kept.succeeded
    undone := undone ▸ kept.undone
    balance := by
      intro o
      have before := kept.balance o
      have weighs : s'.owes o = s.owes o := by
        funext thread
        exact owes_congr fun _ _ _ _ => txns ▸ rfl
      have dues : s'.due o = s.due o := by
        funext i
        exact due_congr (quiet i)
      have sum := sum_map_set_add (b := b) here (s.owes o)
      have due := sum_due_erase (o := o) listed
      have own := owes o
      unfold owed at before ⊢
      rw [threads, queue, weighs, dues, taken, released, handed]
      omega }

theorem alloc (inv : s.Inv) (here : s.At k .idle) {id : ContextId} {args : Args} {copied : Bool}
    (release : id = contextIdAny → args.oo = []) : (s.alloc k id args copied).Kept := by
  generalize after : s.alloc k id args copied = s'
  generalize next : (if copied then Thread.allocated id s.allocated
    else .dequeued id s.allocated (-EINVAL)) = b
  have threads : s'.threads = s.threads.set k b := by
    rw [← after, ← next]
    rfl
  have queue : s'.queue = s.queue := by
    rw [← after]
    rfl
  have allocated : s'.allocated = s.allocated + 1 := by
    rw [← after]
    rfl
  have logs : s'.taken = s.taken ∧ s'.released = s.released ∧ s'.handed = s.handed ∧
      s'.accepted = s.accepted ∧ s'.succeeded = s.succeeded ∧ s'.undone = s.undone := by
    rw [← after]
    exact ⟨rfl, rfl, rfl, rfl, rfl, rfl⟩
  obtain ⟨taken, released, handed, accepted, succeeded, undone⟩ := logs
  have new : s'.txns s.allocated = { contextId := id, args := args } := by
    rw [← after]
    exact update_self ..
  have old : ∀ i < s.allocated, s'.txns i = s.txns i := by
    intro i below
    rw [← after]
    exact update_of_ne (by omega) ..
  have held : ∀ i, 0 < s.parties i → s'.txns i = s.txns i := fun i held =>
    old i (inv.lt_allocated held)
  have plain : ∀ o, s'.owes o b = 0 := by
    intro o
    rw [← next]
    split <;> rfl
  have same : ∀ thread ∈ s.threads, ∀ i, 0 < thread.holds i ∨ thread.owner = some i ∨ i ∈ s.queue →
      s'.txns i = s.txns i := by
    intro thread member i uses
    apply held
    rcases uses with holds | owns | listed
    · exact parties_of_holds member holds
    · exact parties_of_mem ((inv.fits thread member).owner i owns).1
    · exact parties_of_mem listed
  have cases_lt : ∀ i < s'.allocated, i = s.allocated ∨ i < s.allocated := by
    intro i below
    omega
  exact {
    releases := by
      intro i below is
      rcases cases_lt i below with rfl | below
      · rw [new] at is ⊢
        exact release is
      · rw [old i below] at is ⊢
        exact kept.releases i below is
    awaited := by
      intro i below call waits
      rcases cases_lt i below with rfl | below
      · rw [new] at waits
        rcases waits with is | is <;> cases is
      · rw [old i below] at call waits
        rw [queue]
        exact kept.awaited i below call waits
    carries := by
      rw [threads]
      refine forall_mem_set_of_apart ?_ fun j thread _ there => ?_
      · rw [← next]
        split
        · trivial
        · exact (by decide : -EINVAL ≠ 0)
      · have member := List.mem_of_getElem? there
        refine carries_congr (fun _ member => .inl (queue ▸ member)) ?_ ?_ (kept.carries thread member)
        · intro i uses
          rw [same thread member i uses]
          exact .refl _
        · intro i owns
          rw [same thread member i (.inr (.inl owns))]
          exact fun timedOut => timedOut
    single := by
      rw [threads]
      refine nodup_filterMap_set kept.single here (.inr ?_)
      rw [← next]
      split <;> rfl
    outcome := by
      intro i below delivered
      rcases cases_lt i below with rfl | below
      · rw [new] at delivered
        cases delivered.1
      · rw [old i below] at delivered ⊢
        rw [accepted]
        exact kept.outcome i below delivered
    once := accepted ▸ kept.once
    final := by
      rw [accepted]
      intro r member
      obtain ⟨below, done⟩ := kept.final r member
      rw [old r.1 below]
      exact ⟨by omega, done⟩
    succeeded := by
      rw [succeeded, accepted]
      exact kept.succeeded
    undone := undone ▸ kept.undone
    balance := by
      intro o
      have before := kept.balance o
      have sum := sum_map_set_add_of_apart (b := b) (s.owes o) (s'.owes o) here
        fun j thread _ there => owes_congr fun id i status is => by
          have member := List.mem_of_getElem? there
          rw [same thread member i (.inl (by rw [is]; simp [Thread.holds]))]
      have none : s.owes o .idle = 0 := rfl
      have own := plain o
      have dues : s'.queue.map (s'.due o) = s.queue.map (s.due o) := by
        rw [queue]
        refine List.map_congr_left fun i listed => ?_
        unfold due
        rw [held i (parties_of_mem listed)]
      unfold owed at before ⊢
      rw [threads, dues, taken, released, handed]
      omega }

theorem parse (inv : s.Inv) {r : Response} (here : s.At k (.parsing t r))
    (pending : (s.txns t).processing ≠ .processed)
    (alone : ∀ thread ∈ s.threads, thread.unsettled ≠ some t) : (s.parse k t r).Kept := by
  have taken : s.act k (.parsing t r) .parse = some (s.parse k t r) := rfl
  have lawful := (acted_effect inv here taken).lawful inv
  clear taken
  generalize after : s.parse k t r = s' at lawful ⊢
  generalize result : r.parse (s.txns t).args = out
  have threads : s'.threads = s.threads.set k (.submitting t out.2.args.oo out.1) := by
    rw [← after, ← result]
    rfl
  have queue : s'.queue = s.queue := by
    rw [← after]
    rfl
  have allocated : s'.allocated = s.allocated := by
    rw [← after]
    rfl
  have new : s'.txns t = { s.txns t with args := out.2.args, errno := out.1 } := by
    rw [← after, ← result]
    exact update_self ..
  have others : ∀ i, i ≠ t → s'.txns i = s.txns i := by
    intro i differs
    rw [← after]
    exact update_of_ne differs ..
  have logs : s'.handed = s.handed ∧ s'.accepted = s.accepted ∧ s'.succeeded = s.succeeded ∧
      s'.undone = s.undone := by
    rw [← after]
    exact ⟨rfl, rfl, rfl, rfl⟩
  obtain ⟨handed, accepted, succeeded, undone⟩ := logs
  have taken : s'.taken = s.taken ++ out.2.taken := by
    rw [← after, ← result]
    rfl
  have released : s'.released = s.released ++ out.2.released := by
    rw [← after, ← result]
    rfl
  have frame : ∀ thread ∈ s.threads, s'.Carries thread := fun thread member =>
    carries_of_unsettled others (by rw [new]) queue pending (by rw [new]) (alone thread member)
      (kept.carries thread member)
  exact {
    releases := by
      intro i below release
      by_cases same : i = t
      · subst same
        rw [new] at release ⊢
        have none := kept.releases i (allocated ▸ below) release
        rw [← result]
        exact r.parse_oo none
      · rw [others i same] at release ⊢
        exact kept.releases i (allocated ▸ below) release
    awaited := by
      intro i below call waits
      rw [queue]
      have same : (s'.txns i).contextId = (s.txns i).contextId ∧
          (s'.txns i).processing = (s.txns i).processing := by
        by_cases same : i = t
        · rw [same, new]
          exact ⟨rfl, rfl⟩
        · rw [others i same]
          exact ⟨rfl, rfl⟩
      rw [same.1] at call
      rw [same.2] at waits
      exact kept.awaited i (allocated ▸ below) call waits
    carries := by
      rw [threads]
      refine forall_mem_set_of_apart ?_ fun _ thread _ there =>
        frame thread (List.mem_of_getElem? there)
      show (s'.txns t).processing ≠ _ ∧ (s'.txns t).errno = _ ∧ (_ → (s'.txns t).args.oo = _)
      rw [new]
      exact ⟨pending, rfl, fun _ => rfl⟩
    single := by
      rw [threads]
      exact nodup_filterMap_claim kept.single here alone
    outcome := by
      intro i below delivered
      by_cases same : i = t
      · subst same
        rw [new] at delivered
        exact absurd delivered.1 pending
      · rw [others i same] at delivered ⊢
        rw [accepted]
        exact kept.outcome i (allocated ▸ below) delivered
    once := accepted ▸ kept.once
    final := by
      rw [accepted, allocated]
      intro r member
      obtain ⟨below, done⟩ := kept.final r member
      rw [others r.1 fun same => pending (same ▸ done)]
      exact ⟨below, done⟩
    succeeded := by
      rw [succeeded, accepted]
      exact kept.succeeded
    undone := undone ▸ kept.undone
    balance := by
      intro o
      have before := kept.balance o
      have sum := sum_map_set_add_of_apart (b := .submitting t out.2.args.oo out.1) (s.owes o)
        (s'.owes o) here fun j thread _ there => owes_congr fun id i status is => by
          have delivered := kept.carries thread (List.mem_of_getElem? there)
          rw [is] at delivered
          rw [others i fun same => pending (same ▸ delivered.1)]
      have dues : s'.queue.map (s'.due o) = s.queue.map (s.due o) := by
        rw [queue]
        refine List.map_congr_left fun i _ => ?_
        by_cases same : i = t
        · subst same
          rw [due_of_pending pending, due_of_pending (by rwa [new])]
        · unfold due
          rw [others i same]
      have count := r.parse_count (s.txns t).args o
      rw [result] at count
      have none : s.owes o (.parsing t r) = 0 := rfl
      have own : s'.owes o (.submitting t out.2.args.oo out.1) =
          if out.1 = 0 then (gotten out.2.args.oo).count o else 0 := rfl
      unfold owed at before ⊢
      rw [threads, dues, taken, released, handed, List.count_append, List.count_append]
      omega }

theorem enqueue (inv : s.Inv) {id : ContextId} (here : s.At k (.allocated id t)) :
    (s.queueTxn k id t).Kept := by
  have taken : s.act k (.allocated id t) .queue = some (s.queueTxn k id t) := rfl
  have lawful := (acted_effect inv here taken).lawful inv
  clear taken
  generalize after : s.queueTxn k id t = s' at lawful ⊢
  unfold queueTxn at after
  split at after
  · subst after
    exact kept.walk inv lawful here rfl rfl rfl (fun _ => .refl _) rfl (fun _ => .inl)
      (fun _ => .inl) (.inl rfl) (fun _ => rfl) (by decide : -EINVAL ≠ 0)
  · obtain ⟨called, fresh, _⟩ := (inv.fits _ here.mem).fresh id t rfl
    generalize next : (if id = contextIdAny then Thread.idle else .waiting id t) = b at after
    have threads : s'.threads = s.threads.set k b := by
      rw [← after]
      rfl
    have queue : s'.queue = t :: s.queue := by
      rw [← after]
      rfl
    have allocated : s'.allocated = s.allocated := by
      rw [← after]
      rfl
    have new : s'.txns t = { s.txns t with processing := .pending } := by
      rw [← after]
      exact update_self ..
    have quiet : ∀ i, (s.txns i).Quiet (s'.txns i) := by
      intro i
      have one : (s.txns t).Quiet { s.txns t with processing := .pending } := by
        refine ⟨rfl, rfl, rfl, .inr ?_⟩
        rw [fresh]
        exact ⟨by simp, by simp, by simp⟩
      rw [← after]
      exact quiet_update one i
    have logs : s'.taken = s.taken ∧ s'.released = s.released ∧ s'.handed = s.handed ∧
        s'.accepted = s.accepted ∧ s'.succeeded = s.succeeded ∧ s'.undone = s.undone := by
      rw [← after]
      exact ⟨rfl, rfl, rfl, rfl, rfl, rfl⟩
    obtain ⟨taken, released, handed, accepted, succeeded, undone⟩ := logs
    have listed : ∀ i, i ∈ s'.queue ↔ i = t ∨ i ∈ s.queue := by
      intro i
      rw [queue]
      exact List.mem_cons
    have expires : ∀ i, (s'.txns i).processing = .timedOut → (s.txns i).processing = .timedOut := by
      intro i timedOut
      by_cases same : i = t
      · rw [same, new] at timedOut
        cases timedOut
      · rw [← after] at timedOut
        have other : update s.txns t { s.txns t with processing := .pending } i = s.txns i :=
          update_of_ne same ..
        exact other ▸ timedOut
    have unsettled : b.unsettled = none := by
      rw [← next]
      split <;> rfl
    have plain : ∀ o, s'.owes o b = 0 := by
      intro o
      rw [← next]
      split <;> rfl
    exact {
      releases := by
        intro i below release
        rw [(quiet i).contextId] at release
        rw [(quiet i).oo]
        exact kept.releases i (allocated ▸ below) release
      awaited := by
        intro i below call waits
        rw [listed]
        by_cases same : i = t
        · exact .inl same
        · have other : s'.txns i = s.txns i := by
            rw [← after]
            exact update_of_ne same ..
          rw [other] at call waits
          exact .inr (kept.awaited i (allocated ▸ below) call waits)
      carries := by
        rw [threads]
        refine forall_mem_set_of_apart ?_ fun j thread apart there => ?_
        · rw [← next]
          split
          · trivial
          · intro timedOut
            have before := expires t timedOut
            rw [fresh] at before
            cases before
        · have member := List.mem_of_getElem? there
          refine carries_congr (fun i member' => ?_) (fun i _ => quiet i) (fun i _ => expires i)
            (kept.carries thread member)
          refine ((listed i).mp member').symm.imp_right ?_
          rintro rfl errno is
          rw [(quiet i).contextId, called] at is
          have call : id ≠ contextIdAny := by
            have stray := inv.strays thread member
            rw [is] at stray
            exact of_decide_eq_false stray
          refine claim_ne_of_nodup here there apart inv.contexts (c := id) ?_ (if_neg call)
          rw [is]
          exact if_neg call
      single := by
        rw [threads]
        exact nodup_filterMap_set kept.single here (.inr unsettled)
      outcome := by
        intro i below delivered
        rw [(quiet i).oo, accepted]
        exact kept.outcome i (allocated ▸ below) ((quiet i).delivered_iff.mp delivered)
      once := accepted ▸ kept.once
      final := by
        rw [accepted, allocated]
        intro r member
        obtain ⟨below, done⟩ := kept.final r member
        refine ⟨below, ?_⟩
        rcases (quiet r.1).processing with same | ⟨before, _⟩
        · rw [same, done]
        · exact absurd done before
      succeeded := by
        rw [succeeded, accepted]
        exact kept.succeeded
      undone := undone ▸ kept.undone
      balance := by
        intro o
        have before := kept.balance o
        have sum := sum_map_set_add_of_apart (b := b) (s.owes o) (s'.owes o) here
          fun _ _ _ _ => owes_congr fun _ i _ _ => (quiet i).oo
        have dues : s.queue.map (s'.due o) = s.queue.map (s.due o) :=
          List.map_congr_left fun i _ => due_congr (quiet i)
        have none : s.owes o (.allocated id t) = 0 := rfl
        have own := plain o
        have unanswered : s'.due o t = 0 := due_of_pending (by rw [new]; simp)
        unfold owed at before ⊢
        rw [threads, queue, List.map_cons, List.sum_cons, dues, taken, released, handed]
        omega }

theorem submit (inv : s.Inv) {own : List Object} {errno : Int}
    (here : s.At k (.submitting t own errno)) : (s.submit k t own errno).Kept := by
  have taken : s.act k (.submitting t own errno) .submit = some (s.submit k t own errno) := rfl
  have lawful := (acted_effect inv here taken).lawful inv
  clear taken
  obtain ⟨pending, result, objects⟩ := kept.carries _ here.mem
  unfold State.submit at lawful ⊢
  split
  · rename_i x set
    obtain ⟨rfl, along, _⟩ := Txn.setState_spec set
    rw [set] at lawful
    have processing : (s.txns t).processing = .processing := by
      generalize (s.txns t).processing = p at along pending
      cases along with
      | stay => exact absurd rfl pending
      | respond => rfl
    generalize after : ({ s.write t { s.txns t with processing := .processed } with
      accepted := if errno = 0 then s.accepted ++ [(t, own)] else s.accepted } : State).goto k
        (.settling t own errno true) = s'
    have threads : s'.threads = s.threads.set k (.settling t own errno true) := by
      rw [← after]
      rfl
    have queue : s'.queue = s.queue := by
      rw [← after]
      rfl
    have allocated : s'.allocated = s.allocated := by
      rw [← after]
      rfl
    have new : s'.txns t = { s.txns t with processing := .processed } := by
      rw [← after]
      exact update_self ..
    have others : ∀ i, i ≠ t → s'.txns i = s.txns i := by
      intro i differs
      rw [← after]
      exact update_of_ne differs ..
    have logs : s'.taken = s.taken ∧ s'.released = s.released ∧ s'.handed = s.handed ∧
        s'.succeeded = s.succeeded ∧ s'.undone = s.undone := by
      rw [← after]
      exact ⟨rfl, rfl, rfl, rfl, rfl⟩
    obtain ⟨taken, released, handed, succeeded, undone⟩ := logs
    have accepted : s'.accepted = if errno = 0 then s.accepted ++ [(t, own)] else s.accepted := by
      rw [← after]
      rfl
    have earlier : ∀ r ∈ s.accepted, r ∈ s'.accepted := by
      intro r member
      rw [accepted]
      split
      · exact List.mem_append_left _ member
      · exact member
    have held : t < s.allocated :=
      inv.lt_allocated (parties_of_holds here.mem (by simp [Thread.holds]))
    have same : ∀ i, (s'.txns i).contextId = (s.txns i).contextId ∧
        (s'.txns i).args = (s.txns i).args ∧ (s'.txns i).errno = (s.txns i).errno := by
      intro i
      by_cases same : i = t
      · rw [same, new]
        exact ⟨rfl, rfl, rfl⟩
      · rw [others i same]
        exact ⟨rfl, rfl, rfl⟩
    exact {
      releases := by
        intro i below release
        rw [(same i).1] at release
        rw [(same i).2.1]
        exact kept.releases i (allocated ▸ below) release
      awaited := by
        intro i below call waits
        rw [queue]
        by_cases is : i = t
        · rw [is, new] at waits
          rcases waits with is | is <;> cases is
        · rw [others i is] at call waits
          exact kept.awaited i (allocated ▸ below) call waits
      carries := by
        rw [threads]
        refine forall_mem_set_of_apart trivial fun j thread apart there => ?_
        refine carries_of_unsettled others (same t).1 queue pending ?_ ?_
          (kept.carries thread (List.mem_of_getElem? there))
        · rw [new, processing]
          simp
        · intro unsettled
          exact claim_ne_of_nodup here there apart kept.single unsettled rfl
      single := by
        rw [threads]
        exact nodup_filterMap_set kept.single here (.inr rfl)
      outcome := by
        intro i below delivered
        rw [(same i).2.1]
        by_cases is : i = t
        · subst is
          have ok : errno = 0 := by
            rw [← result, ← (same i).2.2]
            exact delivered.2
          rw [accepted, if_pos ok, objects ok]
          exact List.mem_append_right _ (List.mem_singleton_self _)
        · rw [others i is] at delivered
          exact earlier _ (kept.outcome i (allocated ▸ below) delivered)
      once := by
        rw [accepted]
        split
        · rw [List.map_append, List.map_singleton]
          refine List.nodup_append.mpr ⟨kept.once, List.nodup_singleton t, ?_⟩
          intro i member i' single is
          obtain ⟨r, there, rfl⟩ := List.mem_map.mp member
          have done := (kept.final r there).2
          rw [is, List.mem_singleton.mp single, processing] at done
          cases done
        · exact kept.once
      final := by
        rw [allocated]
        have before : ∀ r ∈ s.accepted, r.1 < s.allocated ∧
            (s'.txns r.1).processing = .processed := by
          intro r member
          obtain ⟨below, done⟩ := kept.final r member
          rw [others r.1 fun same => pending (same ▸ done)]
          exact ⟨below, done⟩
        rw [accepted]
        split
        · intro r member
          rcases List.mem_append.mp member with member | single
          · exact before r member
          · rw [List.mem_singleton.mp single, new]
            exact ⟨held, rfl⟩
        · exact before
      succeeded := by
        rw [succeeded]
        exact fun r member => earlier r (kept.succeeded r member)
      undone := undone ▸ kept.undone
      balance := by
        intro o
        have before := kept.balance o
        have sum := sum_map_set_add_of_apart (b := .settling t own errno true) (s.owes o)
          (s'.owes o) here fun _ _ _ _ => owes_congr fun _ i _ _ => by rw [(same i).2.1]
        have ours : s.owes o (.submitting t own errno) =
            if errno = 0 then (gotten own).count o else 0 := rfl
        have none : s'.owes o (.settling t own errno true) = 0 := rfl
        have old : s.due o t = 0 := due_of_pending pending
        have due : s'.due o t = if errno = 0 then (gotten own).count o else 0 := by
          unfold State.due
          by_cases ok : errno = 0
          · have done : (s'.txns t).delivered := by
              rw [new]
              exact ⟨rfl, result.trans ok⟩
            rw [if_pos done, if_pos ok, (same t).2.1, objects ok]
          · rw [if_neg ok, if_neg fun done => ok ?_]
            rw [← result, ← (same t).2.2]
            exact done.2
        have others' : ∀ i ∈ s.queue, i ≠ t → s'.due o i = s.due o i := by
          intro i _ differs
          unfold State.due
          rw [others i differs]
        have dues : (s.queue.map (s'.due o)).sum = (s.queue.map (s.due o)).sum + s'.due o t := by
          by_cases listed : t ∈ s.queue
          · have := sum_map_add_of_mem inv.nodup listed others'
            omega
          · -- only a release request is answered when it is not on the list any more
            have release : (s.txns t).contextId = contextIdAny := by
              by_contra call
              exact listed (kept.awaited t held call (.inr processing))
            have empty := kept.releases t held release
            have nothing : s'.due o t = 0 := by
              unfold State.due
              rw [(same t).2.1, empty]
              split <;> rfl
            rw [nothing, List.map_congr_left fun i there => others' i there fun is =>
              listed (is ▸ there)]
            omega
        unfold owed at before ⊢
        rw [threads, queue, dues, due, taken, released, handed]
        omega }
  · rename_i refused
    rw [refused] at lawful
    exact kept.walk inv lawful here rfl rfl rfl (fun _ => .refl _) rfl (fun _ => .inl)
      (fun _ => .inl) (.inl rfl) (fun _ => rfl) ⟨pending, objects⟩

end Kept

end State

end VendorModules.Smci
