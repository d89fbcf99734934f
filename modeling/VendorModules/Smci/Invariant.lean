import VendorModules.Smci.Parties

/-! The invariant of the server's transactions, and what keeps it. -/

namespace VendorModules.Smci

open Function Lib

structure Txn.Moved (x x' : Txn) : Prop where
  contextId : x'.contextId = x.contextId
  processing : x'.processing = x.processing ∨
    x.processing ≠ .new ∧ x'.processing ≠ .new ∧ x'.processing ≠ .pending

theorem Txn.Moved.refl (x : Txn) : x.Moved x := ⟨rfl, .inl rfl⟩

namespace State

structure Fits (s : State) (thread : Thread) : Prop where
  loose : ∀ t, thread.loose = some t → t ∉ s.queue
  owner : ∀ t, thread.owner = some t →
    t ∈ s.queue ∧ thread.context = some (s.txns t).contextId
  picker : ∀ t, thread.picker = some t →
    (s.txns t).processing ≠ .new ∧ (s.txns t).processing ≠ .pending ∧
      ((s.txns t).contextId = contextIdAny → t ∈ s.queue)
  withdrawing : ∀ t ok, thread = .withdrawing t ok → (s.txns t).contextId = contextIdAny
  fresh : ∀ id t, thread = .allocated id t →
    (s.txns t).contextId = id ∧ (s.txns t).processing = .new ∧ s.parties t = 1

theorem fits_of_none {s : State} {thread : Thread} (loose : thread.loose = none)
    (owner : thread.owner = none) (picker : thread.picker = none) : s.Fits thread := by
  refine ⟨?_, ?_, ?_, ?_, ?_⟩
  · intro t is
    rw [loose] at is
    cases is
  · intro t is
    rw [owner] at is
    cases is
  · intro t is
    rw [picker] at is
    cases is
  · intro t ok is
    rw [is] at picker
    cases picker
  · intro id t is
    rw [is] at loose
    cases loose

/-- A queued transaction is somebody's: of a call that waits for it, or that is to be notified, or
of the server thread that has picked a release request. -/
def Claimed (s : State) (t : Nat) : Prop :=
  if (s.txns t).contextId = contextIdAny then
    ((s.txns t).processing = .pending ∧ s.dead = false) ∨
      ∃ thread ∈ s.threads, thread.picker = some t
  else
    ∃ thread ∈ s.threads, thread.context = some (s.txns t).contextId ∧ thread.keeps t

structure Inv (s : State) : Prop where
  untouched : s.touchedFreed = false
  counted : ∀ t < s.allocated, (s.txns t).kref.Held (s.parties t)
  beyond : ∀ t, s.allocated ≤ t → s.parties t = 0
  nodup : s.queue.Nodup
  /-- Each call has one transaction on the list. -/
  distinct : ∀ t ∈ s.queue, ∀ t' ∈ s.queue, (s.txns t).contextId ≠ contextIdAny →
    (s.txns t').contextId = (s.txns t).contextId → t' = t
  queued : ∀ t ∈ s.queue, (s.txns t).processing ≠ .new
  contexts : (s.threads.filterMap Thread.context).Nodup
  pickers : (s.threads.filterMap Thread.picker).Nodup
  strays : ∀ thread ∈ s.threads, thread.stray = false
  fits : ∀ thread ∈ s.threads, s.Fits thread
  claimed : ∀ t ∈ s.queue, s.Claimed t

namespace Inv

variable {s s' : State} {j k t : Nat} {a b thread : Thread} (inv : s.Inv)
include inv

theorem lt_allocated (held : 0 < s.parties t) : t < s.allocated := by
  by_contra above
  have := inv.beyond t (by omega)
  omega

theorem not_dangling (held : 0 < s.parties t) : s.dangling t = false := by
  have below := inv.lt_allocated held
  have live := ((inv.counted t below).live held).2
  simp [dangling, live, below]

theorem touch (held : 0 < s.parties t) : (s.touch t).touchedFreed = false := by
  simp [State.touch, inv.untouched, inv.not_dangling held]

theorem touchQueue : s.touchQueue.touchedFreed = false := by
  have all : s.queue.any s.dangling = false := by
    rw [List.any_eq_false]
    intro t member
    simp [inv.not_dangling (parties_of_mem member)]
  simp [State.touchQueue, inv.untouched, all]

theorem owner_unique (here : s.At k a) (there : s.At j thread) (apart : j ≠ k)
    (calls : a.context = some (s.txns t).contextId) : thread.owner ≠ some t := by
  intro owns
  have fits := (inv.fits thread there.mem).owner t owns
  exact claim_ne_of_nodup here there apart inv.contexts fits.2 calls

theorem fresh_unused {id : ContextId} (here : s.At k a) (there : s.At j thread) (apart : j ≠ k)
    (fresh : thread = .allocated id t) : t ∉ s.queue ∧ a.holds t = 0 := by
  have one := ((inv.fits thread there.mem).fresh id t fresh).2.2
  have total := holds_add_le here there apart t
  have own : thread.holds t = 1 := by
    rw [fresh]
    exact if_pos rfl
  refine ⟨fun member => ?_, by omega⟩
  have := List.count_pos_iff.mpr member
  omega

theorem advance (here : s.At k a) (threads : s'.threads = s.threads.set k b)
    (queue : s'.queue = s.queue) (dead : s'.dead = s.dead) (allocated : s'.allocated = s.allocated)
    (untouched : s'.touchedFreed = false) (moved : ∀ t, (s.txns t).Moved (s'.txns t))
    (adjusts : ∀ t, Kref.Adjusts (t ∈ s.queue) (s.txns t).kref (s'.txns t).kref (a.holds t)
      (b.holds t))
    (contexts : b.context = a.context ∨ b.context = none)
    (keeps : ∀ t ∈ s.queue, a.context = some (s.txns t).contextId → a.keeps t →
      b.context = a.context ∧ b.keeps t)
    (pickers : (s'.threads.filterMap Thread.picker).Nodup)
    (picks : ∀ t ∈ s.queue, (s.txns t).contextId = contextIdAny →
      ((s.txns t).processing = .pending ∧ (s'.txns t).processing ≠ .pending) ∨
        a.picker = some t → b.picker = some t)
    (stray : b.stray = false) (fits : s'.Fits b) : s'.Inv where
  untouched := untouched
  counted := by
    intro t below
    have held := inv.counted t (allocated ▸ below)
    exact held.adjust (adjusts t) (parties_set here threads queue t) parties_of_mem
  beyond := by
    intro t above
    have none := inv.beyond t (allocated ▸ above)
    have total := parties_set here threads queue t
    rcases (adjusts t).own with same | ⟨found, _⟩ | put
    · omega
    · have := parties_of_mem found
      omega
    · have := parties_of_holds here.mem (by omega : 0 < a.holds t)
      omega
  nodup := queue ▸ inv.nodup
  distinct := by
    intro t member t' member' call same
    rw [(moved t).contextId] at call same
    rw [(moved t').contextId] at same
    exact inv.distinct t (queue ▸ member) t' (queue ▸ member') call same
  queued := by
    intro t member
    rcases (moved t).processing with same | ⟨_, kept, _⟩
    · rw [same]
      exact inv.queued t (queue ▸ member)
    · exact kept
  contexts := by
    rw [threads]
    exact nodup_filterMap_set inv.contexts here contexts
  pickers := pickers
  strays := by
    rw [threads]
    exact forall_mem_set_of_apart stray fun _ _ _ there => inv.strays _ (List.mem_of_getElem? there)
  fits := by
    rw [threads]
    refine forall_mem_set_of_apart fits fun j thread apart there => ?_
    have old := inv.fits thread (List.mem_of_getElem? there)
    refine ⟨?_, ?_, ?_, ?_, ?_⟩
    · rw [queue]
      exact old.loose
    · intro t owns
      rw [queue, (moved t).contextId]
      exact old.owner t owns
    · intro t picked
      obtain ⟨started, taken, listed⟩ := old.picker t picked
      rw [queue, (moved t).contextId]
      rcases (moved t).processing with same | ⟨_, started', taken'⟩
      · rw [same]
        exact ⟨started, taken, listed⟩
      · exact ⟨started', taken', listed⟩
    · intro t ok withdraws
      rw [(moved t).contextId]
      exact old.withdrawing t ok withdraws
    · intro id t fresh
      obtain ⟨called, new, one⟩ := old.fresh id t fresh
      obtain ⟨unlisted, unheld⟩ := inv.fresh_unused here there apart fresh
      have total := parties_set here threads queue t
      have parties : s'.parties t = 1 := by
        rcases (adjusts t).own with same | ⟨found, _⟩ | put
        · omega
        · exact absurd found unlisted
        · omega
      rcases (moved t).processing with same | ⟨started, _⟩
      · exact ⟨(moved t).contextId.trans called, same.trans new, parties⟩
      · exact absurd new started
  claimed := by
    intro t member
    have listed : t ∈ s.queue := queue ▸ member
    have old := inv.claimed t listed
    unfold Claimed at old ⊢
    rw [(moved t).contextId, threads, dead]
    split at old
    · rename_i release
      rw [if_pos release]
      have new : b ∈ s.threads.set k b := mem_set_self here
      by_cases gone : a.picker = some t
      · exact .inr ⟨b, new, picks t listed release (.inr gone)⟩
      · rcases old with ⟨pending, lives⟩ | ⟨thread, member, picked⟩
        · by_cases still : (s'.txns t).processing = .pending
          · exact .inl ⟨still, lives⟩
          · exact .inr ⟨b, new, picks t listed release (.inl ⟨pending, still⟩)⟩
        · refine .inr ⟨thread, mem_set_of_ne member here fun same => gone ?_, picked⟩
          exact same ▸ picked
    · rename_i call
      rw [if_neg call]
      obtain ⟨thread, member, calls, kept⟩ := old
      by_cases same : thread = a
      · subst same
        obtain ⟨context, keep⟩ := keeps t listed calls kept
        exact ⟨b, mem_set_self here, context.trans calls, keep⟩
      · exact ⟨thread, mem_set_of_ne member here same, calls, kept⟩

theorem takeOff (here : s.At k a) (listed : t ∈ s.queue) (threads : s'.threads = s.threads.set k b)
    (queue : s'.queue = s.queue.erase t) (dead : s'.dead = s.dead)
    (allocated : s'.allocated = s.allocated) (untouched : s'.touchedFreed = false)
    (txns : s'.txns = s.txns)
    (holds : ∀ i, b.holds i = a.holds i + if i = t then 1 else 0) (loose : b.loose = some t)
    (contexts : b.context = a.context) (unpicked : b.picker = none) (free : b.owner = none)
    (own : a.context = some (s.txns t).contextId ∧ a.picker = none ∨
      (s.txns t).contextId = contextIdAny ∧ a.picker = some t ∧ a.context = none)
    (plain : (∀ i ok, b ≠ .withdrawing i ok) ∧ (∀ id i, b ≠ .allocated id i) ∧
      b.stray = false) : s'.Inv := by
  have parties : ∀ i, s'.parties i = s.parties i := by
    intro i
    have sum := sum_map_set_add (b := b) here (·.holds i)
    have held := holds i
    have count : s'.queue.count i + (if i = t then 1 else 0) = s.queue.count i := by
      rw [queue]
      by_cases same : i = t
      · subst same
        have := List.count_pos_iff.mpr listed
        rw [List.count_erase_self, if_pos rfl]
        omega
      · rw [List.count_erase_of_ne same, if_neg same, Nat.add_zero]
    unfold State.parties
    rw [threads]
    omega
  have erased : ∀ i, i ∈ s'.queue ↔ i ≠ t ∧ i ∈ s.queue := by
    intro i
    rw [queue]
    exact inv.nodup.mem_erase_iff
  exact {
    untouched := untouched
    counted := by
      intro i below
      rw [txns, parties]
      exact inv.counted i (allocated ▸ below)
    beyond := by
      intro i above
      rw [parties]
      exact inv.beyond i (allocated ▸ above)
    nodup := by
      rw [queue]
      exact inv.nodup.erase t
    distinct := by
      rw [txns]
      intro i member i' member'
      exact inv.distinct i ((erased i).mp member).2 i' ((erased i').mp member').2
    queued := by
      rw [txns]
      intro i member
      exact inv.queued i ((erased i).mp member).2
    contexts := by
      rw [threads]
      exact nodup_filterMap_set inv.contexts here (.inl contexts)
    pickers := by
      rw [threads]
      exact nodup_filterMap_set inv.pickers here (.inr unpicked)
    strays := by
      rw [threads]
      exact forall_mem_set_of_apart plain.2.2 fun _ _ _ there =>
        inv.strays _ (List.mem_of_getElem? there)
    fits := by
      rw [threads]
      apply forall_mem_set_of_apart
      · refine ⟨?_, ?_, ?_, ?_, ?_⟩
        · intro i is
          rw [loose] at is
          rw [erased]
          exact fun member => member.1 (Option.some.inj is).symm
        · intro i is
          rw [free] at is
          cases is
        · intro i is
          rw [unpicked] at is
          cases is
        · exact fun i ok is => absurd is (plain.1 i ok)
        · exact fun id i is => absurd is (plain.2.1 id i)
      · intro j thread apart there
        have old := inv.fits thread (List.mem_of_getElem? there)
        refine ⟨?_, ?_, ?_, ?_, ?_⟩
        · intro i is member
          exact old.loose i is ((erased i).mp member).2
        · intro i owns
          obtain ⟨member, calls⟩ := old.owner i owns
          rw [erased, txns]
          refine ⟨⟨fun same => ?_, member⟩, calls⟩
          subst same
          rcases own with ⟨ours, _⟩ | ⟨release, _⟩
          · exact inv.owner_unique here there apart ours owns
          · exact Thread.context_ne_any calls release
        · intro i picked
          obtain ⟨started, taken, member⟩ := old.picker i picked
          rw [erased, txns]
          refine ⟨started, taken, fun release => ⟨fun same => ?_, member release⟩⟩
          subst same
          rcases own with ⟨ours, _⟩ | ⟨_, picks, _⟩
          · exact Thread.context_ne_any ours release
          · exact claim_ne_of_nodup here there apart inv.pickers picked picks
        · rw [txns]
          exact old.withdrawing
        · intro id i fresh
          rw [txns, parties]
          exact old.fresh id i fresh
    claimed := by
      intro i member
      obtain ⟨differs, listed'⟩ := (erased i).mp member
      have old := inv.claimed i listed'
      unfold Claimed at old ⊢
      rw [txns, threads, dead]
      split at old
      · rename_i release
        rw [if_pos release]
        rcases old with pending | ⟨thread, there, picked⟩
        · exact .inl pending
        · refine .inr ⟨thread, mem_set_of_ne there here fun same => ?_, picked⟩
          subst same
          rcases own with ⟨_, none⟩ | ⟨_, picks, _⟩
          · rw [none] at picked
            cases picked
          · exact differs (Option.some.inj (picked.symm.trans picks))
      · rename_i call
        rw [if_neg call]
        obtain ⟨thread, there, calls, kept⟩ := old
        refine ⟨thread, mem_set_of_ne there here fun same => ?_, calls, kept⟩
        subst same
        rcases own with ⟨ours, _⟩ | ⟨_, _, none⟩
        · have same : (s.txns i).contextId = (s.txns t).contextId :=
            Option.some.inj (calls.symm.trans ours)
          exact differs (inv.distinct t listed i listed' (same ▸ call) same)
        · rw [none] at calls
          cases calls }

theorem putOn {id : ContextId} (here : s.At k (.allocated id t)) (alive : s.dead = false)
    (threads : s'.threads = s.threads.set k (if id = contextIdAny then .idle else .waiting id t))
    (queue : s'.queue = t :: s.queue) (dead : s'.dead = s.dead)
    (allocated : s'.allocated = s.allocated) (untouched : s'.touchedFreed = false)
    (txns : s'.txns = update s.txns t { s.txns t with processing := .pending }) : s'.Inv := by
  obtain ⟨called, new, one⟩ := (inv.fits _ here.mem).fresh id t rfl
  have unlisted : t ∉ s.queue := (inv.fits _ here.mem).loose t rfl
  have contextId : ∀ i, (s'.txns i).contextId = (s.txns i).contextId := by
    intro i
    rw [txns, update_apply]
    split
    · rename_i same
      rw [same]
    · rfl
  have others : ∀ i, i ≠ t → s'.txns i = s.txns i := by
    intro i differs
    rw [txns, update_of_ne differs]
  have kref : ∀ i, (s'.txns i).kref = (s.txns i).kref := by
    intro i
    rw [txns, update_apply]
    split
    · rename_i same
      rw [same]
    · rfl
  have pending : (s'.txns t).processing = .pending := by
    rw [txns, update_self]
  generalize next : (if id = contextIdAny then Thread.idle else .waiting id t) = b at threads
  have holds : ∀ i, b.holds i = 0 := by
    intro i
    rw [← next]
    split <;> rfl
  have context : b.context = if id = contextIdAny then none else some id := by
    rw [← next]
    split
    · rfl
    · rename_i call
      exact if_neg call
  have parties : ∀ i, s'.parties i = s.parties i := by
    intro i
    have sum := sum_map_set_add (b := b) here (·.holds i)
    have own : (Thread.allocated id t).holds i = if t = i then 1 else 0 := rfl
    have none := holds i
    unfold State.parties
    rw [threads, queue, List.count_cons]
    simp only [beq_iff_eq]
    omega
  have listed : ∀ i, i ∈ s'.queue ↔ i = t ∨ i ∈ s.queue := by
    intro i
    rw [queue]
    exact List.mem_cons
  -- no other thread has the transaction
  have unheld : ∀ j thread, s.At j thread → j ≠ k → thread.holds t = 0 := by
    intro j thread there apart
    have total := holds_add_le here there apart t
    have own : (Thread.allocated id t).holds t = 1 := if_pos rfl
    omega
  exact {
    untouched := untouched
    counted := by
      intro i below
      rw [kref, parties]
      exact inv.counted i (allocated ▸ below)
    beyond := by
      intro i above
      rw [parties]
      exact inv.beyond i (allocated ▸ above)
    nodup := by
      rw [queue]
      exact List.nodup_cons.mpr ⟨unlisted, inv.nodup⟩
    distinct := by
      have first : ∀ i ∈ s.queue, (s.txns i).contextId ≠ contextIdAny →
          (s.txns i).contextId ≠ id := by
        intro i member call same
        have old := inv.claimed i member
        unfold Claimed at old
        rw [if_neg call] at old
        obtain ⟨thread, there, calls, kept⟩ := old
        obtain ⟨j, at_⟩ := List.getElem?_of_mem there
        have ours : (Thread.allocated id t).context = some id := if_neg (same ▸ call)
        by_cases apart : j = k
        · subst apart
          have is : thread = .allocated id t := Option.some.inj (at_.symm.trans here)
          rcases kept with owns | ⟨id', is'⟩
          · rw [is] at owns
            cases owns
          · rw [is] at is'
            cases is'
        · exact claim_ne_of_nodup here at_ apart inv.contexts calls (same ▸ ours)
      intro i member i' member' call same
      rw [contextId] at call same
      rw [contextId] at same
      rcases (listed i).mp member with rfl | member <;>
        rcases (listed i').mp member' with rfl | member'
      · rfl
      · exact absurd (same.trans called) (first i' member' (same ▸ call))
      · exact absurd (same.symm.trans called) (first i member call)
      · exact inv.distinct i member i' member' call same
    queued := by
      intro i member
      rcases (listed i).mp member with rfl | member
      · rw [pending]
        exact fun is => nomatch is
      · rw [others i fun same => unlisted (same ▸ member)]
        exact inv.queued i member
    contexts := by
      rw [threads]
      exact nodup_filterMap_set inv.contexts here (.inl context)
    pickers := by
      rw [threads]
      refine nodup_filterMap_set inv.pickers here (.inl ?_)
      rw [← next]
      split <;> rfl
    strays := by
      rw [threads]
      refine forall_mem_set_of_apart ?_ fun _ _ _ there => inv.strays _ (List.mem_of_getElem? there)
      rw [← next]
      split <;> rfl
    fits := by
      rw [threads]
      apply forall_mem_set_of_apart
      · rw [← next]
        split
        · exact fits_of_none rfl rfl rfl
        · rename_i call
          refine ⟨(fun _ is => nomatch is), ?_, (fun _ is => nomatch is), (fun _ _ is => nomatch is),
            (fun _ _ is => nomatch is)⟩
          intro i is
          cases is
          rw [contextId, called]
          exact ⟨(listed t).mpr (.inl rfl), if_neg call⟩
      · intro j thread apart there
        have old := inv.fits thread (List.mem_of_getElem? there)
        have free := unheld j thread there apart
        refine ⟨?_, ?_, ?_, ?_, ?_⟩
        · intro i is member
          rcases (listed i).mp member with rfl | member
          · have := Thread.holds_of_loose is
            omega
          · exact old.loose i is member
        · intro i owns
          rw [listed, contextId]
          exact (old.owner i owns).imp_left .inr
        · intro i picked
          have differs : i ≠ t := by
            intro same
            have := Thread.holds_of_picker picked
            rw [same] at this
            omega
          rw [others i differs, listed]
          obtain ⟨started, taken, member⟩ := old.picker i picked
          exact ⟨started, taken, fun release => .inr (member release)⟩
        · intro i ok is
          rw [contextId]
          exact old.withdrawing i ok is
        · intro id' i fresh
          have differs : i ≠ t := by
            intro same
            have own : (Thread.allocated id' i).holds t = 1 := if_pos same
            rw [fresh] at free
            omega
          rw [others i differs, parties]
          exact old.fresh id' i fresh
    claimed := by
      intro i member
      unfold Claimed
      rw [contextId, threads]
      rcases (listed i).mp member with rfl | member
      · split
        · exact .inl ⟨pending, dead.trans alive⟩
        · rename_i call
          refine ⟨b, mem_set_self here, ?_⟩
          rw [called] at call ⊢
          rw [context, if_neg call, ← next, if_neg call]
          exact ⟨rfl, .inl rfl⟩
      · have old := inv.claimed i member
        unfold Claimed at old
        rw [others i fun same => unlisted (same ▸ member), dead]
        split at old
        · rename_i release
          rw [if_pos release]
          rcases old with waits | ⟨thread, there, picked⟩
          · exact .inl waits
          · refine .inr ⟨thread, mem_set_of_ne there here fun same => ?_, picked⟩
            rw [same] at picked
            cases picked
        · rename_i call
          rw [if_neg call]
          obtain ⟨thread, there, calls, kept⟩ := old
          refine ⟨thread, mem_set_of_ne there here fun same => ?_, calls, kept⟩
          rw [same] at kept
          rcases kept with owns | ⟨id', is⟩
          · cases owns
          · cases is }

theorem alloc {id : ContextId} {args : Args} {copied : Bool} (here : s.At k .idle)
    (unused : id ≠ contextIdAny → s.unused id) : (s.alloc k id args copied).Inv := by
  generalize after : s.alloc k id args copied = s'
  generalize next : (if copied then Thread.allocated id s.allocated
    else .dequeued id s.allocated (-EINVAL)) = b
  have threads : s'.threads = s.threads.set k b := by
    rw [← after, ← next]
    rfl
  have queue : s'.queue = s.queue := by
    rw [← after]
    rfl
  have dead : s'.dead = s.dead := by
    rw [← after]
    rfl
  have allocated : s'.allocated = s.allocated + 1 := by
    rw [← after]
    rfl
  have untouched : s'.touchedFreed = false := by
    rw [← after]
    exact inv.untouched
  have txns : s'.txns = update s.txns s.allocated { contextId := id, args := args } := by
    rw [← after]
    rfl
  have unheld : s.parties s.allocated = 0 := inv.beyond _ (Nat.le_refl _)
  have unlisted : s.allocated ∉ s.queue := fun member => by
    have := parties_of_mem member
    omega
  have others : ∀ i, 0 < s.parties i → s'.txns i = s.txns i := by
    intro i held
    rw [txns, update_of_ne]
    have := inv.lt_allocated held
    omega
  have holds : ∀ i, b.holds i = if s.allocated = i then 1 else 0 := by
    intro i
    rw [← next]
    split <;> rfl
  have context : b.context = if id = contextIdAny then none else some id := by
    rw [← next]
    split <;> rfl
  have plain : b.owner = none ∧ b.picker = none ∧ b.loose = some s.allocated := by
    rw [← next]
    split <;> exact ⟨rfl, rfl, rfl⟩
  have parties : ∀ i, s'.parties i = s.parties i + if s.allocated = i then 1 else 0 := by
    intro i
    have total := parties_set here threads queue i
    have none : Thread.idle.holds i = 0 := rfl
    have own := holds i
    omega
  exact {
    untouched := untouched
    counted := by
      intro i below
      rw [parties]
      by_cases same : s.allocated = i
      · subst same
        rw [txns, update_self, unheld, if_pos rfl]
        exact Kref.held_init
      · rw [txns, update_of_ne fun is => same is.symm, if_neg same]
        exact inv.counted i (by omega)
    beyond := by
      intro i above
      rw [parties, inv.beyond i (by omega), if_neg (by omega)]
    nodup := queue ▸ inv.nodup
    distinct := by
      rw [queue]
      intro i member i' member'
      rw [others i (parties_of_mem member), others i' (parties_of_mem member')]
      exact inv.distinct i member i' member'
    queued := by
      rw [queue]
      intro i member
      rw [others i (parties_of_mem member)]
      exact inv.queued i member
    contexts := by
      rw [threads]
      by_cases release : id = contextIdAny
      · refine nodup_filterMap_set inv.contexts here (.inr ?_)
        rw [context, if_pos release]
      · apply nodup_filterMap_claim inv.contexts here
        rw [context, if_neg release]
        exact (unused release).2
    pickers := by
      rw [threads]
      exact nodup_filterMap_set inv.pickers here (.inr plain.2.1)
    strays := by
      rw [threads]
      refine forall_mem_set_of_apart ?_ fun _ _ _ there => inv.strays _ (List.mem_of_getElem? there)
      rw [← next]
      split <;> rfl
    fits := by
      rw [threads]
      apply forall_mem_set_of_apart
      · refine ⟨?_, ?_, ?_, ?_, ?_⟩
        · intro i is
          rw [plain.2.2] at is
          rw [queue, ← Option.some.inj is]
          exact unlisted
        · intro i is
          rw [plain.1] at is
          cases is
        · intro i is
          rw [plain.2.1] at is
          cases is
        · intro i ok is
          have none := plain.2.1
          rw [is] at none
          cases none
        · intro id' i is
          rw [← next] at is
          split at is
          · cases is
            rw [txns, update_self, parties, unheld, if_pos rfl]
            exact ⟨rfl, rfl, rfl⟩
          · cases is
      · intro j thread _ there
        have old := inv.fits thread (List.mem_of_getElem? there)
        have held : ∀ i, 0 < thread.holds i → s'.txns i = s.txns i :=
          fun i holds => others i (parties_of_holds (List.mem_of_getElem? there) holds)
        refine ⟨?_, ?_, ?_, ?_, ?_⟩
        · rw [queue]
          exact old.loose
        · intro i owns
          obtain ⟨member, calls⟩ := old.owner i owns
          rw [queue, others i (parties_of_mem member)]
          exact ⟨member, calls⟩
        · intro i picked
          rw [queue, held i (Thread.holds_of_picker picked)]
          exact old.picker i picked
        · intro i ok is
          rw [held i (Thread.holds_of_picker (congrArg Thread.picker is))]
          exact old.withdrawing i ok is
        · intro id' i is
          obtain ⟨called, new, one⟩ := old.fresh id' i is
          have below := inv.lt_allocated (by omega : 0 < s.parties i)
          rw [others i (by omega), parties, one, if_neg (by omega)]
          exact ⟨called, new, rfl⟩
    claimed := by
      rw [queue]
      intro i member
      have old := inv.claimed i member
      unfold Claimed at old ⊢
      rw [others i (parties_of_mem member), threads, dead]
      split at old
      · rename_i release
        rw [if_pos release]
        rcases old with waits | ⟨thread, there, picked⟩
        · exact .inl waits
        · refine .inr ⟨thread, mem_set_of_ne there here fun same => ?_, picked⟩
          rw [same] at picked
          cases picked
      · rename_i call
        rw [if_neg call]
        obtain ⟨thread, there, calls, kept⟩ := old
        refine ⟨thread, mem_set_of_ne there here fun same => ?_, calls, kept⟩
        rw [same] at calls
        cases calls }

end Inv

end State

end VendorModules.Smci
