import VendorModules.Smci.Invariant

/-! The end of a server: what its release leaves of the transactions on the list. -/

namespace VendorModules.Smci.State

open Function Lib

variable {s s' : State} {t : Nat}

namespace Inv

variable (inv : s.Inv)
include inv

theorem congr (threads : s'.threads = s.threads) (queue : s'.queue = s.queue)
    (dead : s'.dead = s.dead) (allocated : s'.allocated = s.allocated)
    (untouched : s'.touchedFreed = false)
    (same : ∀ t, (s'.txns t).contextId = (s.txns t).contextId ∧
      (s'.txns t).processing = (s.txns t).processing ∧ (s'.txns t).kref = (s.txns t).kref) :
    s'.Inv := by
  have parties : ∀ t, s'.parties t = s.parties t := by
    intro t
    unfold State.parties
    rw [threads, queue]
  exact {
    untouched := untouched
    counted := by
      intro t below
      rw [(same t).2.2, parties]
      exact inv.counted t (allocated ▸ below)
    beyond := by
      intro t above
      rw [parties]
      exact inv.beyond t (allocated ▸ above)
    nodup := queue ▸ inv.nodup
    distinct := by
      rw [queue]
      intro t member t' member'
      rw [(same t).1, (same t').1]
      exact inv.distinct t member t' member'
    queued := by
      rw [queue]
      intro t member
      rw [(same t).2.1]
      exact inv.queued t member
    contexts := threads ▸ inv.contexts
    pickers := threads ▸ inv.pickers
    strays := threads ▸ inv.strays
    fits := by
      rw [threads]
      intro thread member
      have old := inv.fits thread member
      refine ⟨?_, ?_, ?_, ?_, ?_⟩
      · rw [queue]
        exact old.loose
      · intro t owns
        rw [queue, (same t).1]
        exact old.owner t owns
      · intro t picked
        rw [queue, (same t).1, (same t).2.1]
        exact old.picker t picked
      · intro t ok is
        rw [(same t).1]
        exact old.withdrawing t ok is
      · intro id t fresh
        rw [(same t).1, (same t).2.1, parties]
        exact old.fresh id t fresh
    claimed := by
      rw [queue]
      intro t member
      have old := inv.claimed t member
      unfold Claimed at old ⊢
      rwa [(same t).1, (same t).2.1, threads, dead] }

theorem touched (held : 0 < s.parties t) : (s.touch t).Inv :=
  inv.congr rfl rfl rfl rfl (inv.touch held) fun _ => ⟨rfl, rfl, rfl⟩

theorem completed (held : 0 < s.parties t) : (s.complete t).Inv := by
  have untouched : (s.complete t).touchedFreed = false := inv.touch held
  refine inv.congr rfl rfl rfl rfl untouched fun i => ?_
  show (update s.txns t _ i).contextId = _ ∧ (update s.txns t _ i).processing = _ ∧
    (update s.txns t _ i).kref = _
  rw [update_apply]
  split
  · rename_i same
    subst same
    exact ⟨rfl, rfl, rfl⟩
  · exact ⟨rfl, rfl, rfl⟩

section Quiet

variable (quiet : ∀ thread ∈ s.threads, thread.serving = false)
include quiet

omit inv in
theorem unpicked {thread : Thread} (member : thread ∈ s.threads) : thread.picker ≠ some t := by
  intro picked
  have idle := quiet thread member
  rw [Thread.serving_of_picker picked] at idle
  cases idle

theorem parties_eq_one (listed : t ∈ s.queue) : s.parties t = 1 := by
  have none : ∀ thread ∈ s.threads, thread.holds t = 0 := by
    intro thread member
    by_contra some
    have off := Thread.loose_of_holds (quiet thread member) (Nat.pos_of_ne_zero some)
    exact (inv.fits thread member).loose t off listed
  have sum : (s.threads.map (·.holds t)).sum = 0 := by
    rw [List.sum_eq_zero_iff_forall_eq_nat]
    intro n member
    obtain ⟨thread, there, rfl⟩ := List.mem_map.mp member
    exact none thread there
  unfold State.parties
  rw [sum, List.count_eq_one_of_mem inv.nodup listed]

theorem freed (listed : t ∈ s.queue) (release : (s.txns t).contextId = contextIdAny) :
    State.Inv { s.write t { s.txns t with kref := (s.txns t).kref.free } with
      queue := s.queue.erase t } := by
  generalize after : ({ s.write t { s.txns t with kref := (s.txns t).kref.free } with
    queue := s.queue.erase t } : State) = s'
  have one := inv.parties_eq_one quiet listed
  have erased : ∀ i, i ∈ s'.queue ↔ i ≠ t ∧ i ∈ s.queue := by
    intro i
    rw [← after]
    exact inv.nodup.mem_erase_iff
  have threads : s'.threads = s.threads := by
    rw [← after]
    rfl
  have txns : s'.txns = update s.txns t { s.txns t with kref := (s.txns t).kref.free } := by
    rw [← after]
    rfl
  have same : ∀ i, (s'.txns i).contextId = (s.txns i).contextId ∧
      (s'.txns i).processing = (s.txns i).processing := by
    intro i
    rw [txns, update_apply]
    split
    · rename_i is
      rw [is]
      exact ⟨rfl, rfl⟩
    · exact ⟨rfl, rfl⟩
  have others : ∀ i, i ≠ t → s'.parties i = s.parties i := by
    intro i differs
    unfold State.parties
    rw [threads, ← after]
    show _ + (s.queue.erase t).count i = _
    rw [List.count_erase_of_ne differs]
  have gone : s'.parties t = 0 := by
    have count := List.count_eq_one_of_mem inv.nodup listed
    have sum : s.parties t = (s.threads.map (·.holds t)).sum + s.queue.count t := rfl
    unfold State.parties
    rw [threads, ← after]
    show _ + (s.queue.erase t).count t = 0
    rw [List.count_erase_self]
    omega
  exact {
    untouched := by
      rw [← after]
      exact inv.touch (by omega)
    counted := by
      intro i below
      have held := inv.counted i (by rwa [← after] at below)
      by_cases is : i = t
      · subst is
        rw [gone, txns, update_self]
        exact (one ▸ held).free
      · rwa [others i is, txns, update_of_ne is]
    beyond := by
      intro i above
      have none := inv.beyond i (by rwa [← after] at above)
      by_cases is : i = t
      · rw [is]
        exact gone
      · rwa [others i is]
    nodup := by
      rw [← after]
      exact inv.nodup.erase t
    distinct := by
      intro i member i' member'
      rw [(same i).1, (same i').1]
      exact inv.distinct i ((erased i).mp member).2 i' ((erased i').mp member').2
    queued := by
      intro i member
      rw [(same i).2]
      exact inv.queued i ((erased i).mp member).2
    contexts := threads ▸ inv.contexts
    pickers := threads ▸ inv.pickers
    strays := threads ▸ inv.strays
    fits := by
      rw [threads]
      intro thread there
      have old := inv.fits thread there
      refine ⟨?_, ?_, ?_, ?_, ?_⟩
      · intro i is member
        exact old.loose i is ((erased i).mp member).2
      · intro i owns
        obtain ⟨member, calls⟩ := old.owner i owns
        rw [erased, (same i).1]
        refine ⟨⟨fun is => ?_, member⟩, calls⟩
        exact Thread.context_ne_any calls (is ▸ release)
      · exact fun i picked => absurd picked (unpicked quiet there)
      · intro i ok is
        rw [(same i).1]
        exact old.withdrawing i ok is
      · intro id i fresh
        have off := old.loose i (by rw [fresh]; rfl)
        rw [(same i).1, (same i).2, others i fun is => off (is ▸ listed)]
        exact old.fresh id i fresh
    claimed := by
      intro i member
      have old := inv.claimed i ((erased i).mp member).2
      have dead : s'.dead = s.dead := by
        rw [← after]
        rfl
      unfold Claimed at old ⊢
      rwa [(same i).1, (same i).2, threads, dead] }

theorem terminate (listed : t ∈ s.queue) : (s.terminate t).Inv := by
  have held := parties_of_mem listed
  unfold State.terminate
  split
  · split
    · rename_i release
      split
      · exact inv.freed quiet listed release
      · exact inv.touched held
    · exact inv.completed held
  · exact inv.touched held

end Quiet

end Inv

@[simp] theorem terminate_threads (s : State) (t : Nat) : (s.terminate t).threads = s.threads := by
  unfold terminate
  split_ifs <;> rfl

theorem terminate_contextId (s : State) (t i : Nat) :
    ((s.terminate t).txns i).contextId = (s.txns i).contextId := by
  have written : ∀ x : Txn, x.contextId = (s.txns t).contextId →
      (update s.txns t x i).contextId = (s.txns i).contextId := by
    intro x same
    rw [update_apply]
    split
    · rename_i is
      rw [is, same]
    · rfl
  unfold terminate
  split_ifs
  · exact written _ rfl
  · rfl
  · exact written _ rfl
  · rfl

theorem mem_of_mem_terminate {i : Nat} (member : i ∈ (s.terminate t).queue) : i ∈ s.queue := by
  unfold terminate at member
  split_ifs at member
  · exact List.mem_of_mem_erase member
  all_goals exact member

theorem mem_terminate {i : Nat} (differs : i ≠ t) (member : i ∈ s.queue) :
    i ∈ (s.terminate t).queue := by
  unfold terminate
  split_ifs
  · exact (List.mem_erase_of_ne differs).mpr member
  all_goals exact member

theorem terminate_kill (s : State) (t : Nat) :
    ({ s with dead := true } : State).terminate t = { s.terminate t with dead := true } := by
  unfold terminate
  dsimp only
  split_ifs <;> rfl

theorem foldl_terminate_kill (ts : List Nat) (s : State) :
    ts.foldl terminate { s with dead := true } = { ts.foldl terminate s with dead := true } := by
  induction ts generalizing s with
  | nil => rfl
  | cons t ts ih =>
    simp only [List.foldl_cons]
    rw [terminate_kill, ih]

theorem Inv.foldl_terminate {ts : List Nat} (inv : s.Inv)
    (quiet : ∀ thread ∈ s.threads, thread.serving = false) (nodup : ts.Nodup)
    (listed : ∀ t ∈ ts, t ∈ s.queue)
    (rest : ∀ t ∈ s.queue, t ∈ ts ∨ (s.txns t).contextId ≠ contextIdAny) :
    (ts.foldl State.terminate s).Inv ∧ (ts.foldl State.terminate s).threads = s.threads ∧
      ∀ t ∈ (ts.foldl State.terminate s).queue,
        ((ts.foldl State.terminate s).txns t).contextId ≠ contextIdAny := by
  induction ts generalizing s with
  | nil =>
    refine ⟨inv, rfl, fun t member => ?_⟩
    exact (rest t member).resolve_left (List.not_mem_nil)
  | cons t ts ih =>
    have here : t ∈ s.queue := listed t (List.mem_cons_self ..)
    obtain ⟨absent, nodup⟩ := List.nodup_cons.mp nodup
    have next := ih (s := s.terminate t) (inv.terminate quiet here)
      (by rwa [terminate_threads]) nodup
      (fun i member => mem_terminate (fun is => absent (is ▸ member))
        (listed i (List.mem_cons_of_mem _ member)))
      (fun i member => by
        rw [terminate_contextId]
        by_cases is : i = t
        · subst is
          refine .inr fun release => ?_
          have claimed := inv.claimed i here
          unfold Claimed at claimed
          rw [if_pos release] at claimed
          rcases claimed with ⟨pending, _⟩ | ⟨thread, there, picked⟩
          · unfold State.terminate at member
            rw [if_pos (.inl pending), if_pos release, if_pos pending] at member
            exact (inv.nodup.mem_erase_iff.mp member).1 rfl
          · exact unpicked quiet there picked
        · rcases rest i (mem_of_mem_terminate member) with later | call
          · exact .inl ((List.mem_cons.mp later).resolve_left is)
          · exact .inr call)
    rw [terminate_threads] at next
    exact next

theorem Inv.serverRelease (inv : s.Inv)
    (quiet : ∀ thread ∈ s.threads, thread.serving = false) : s.serverRelease.Inv := by
  obtain ⟨closed, threads, calls⟩ := inv.foldl_terminate quiet inv.nodup (fun _ => id)
    fun _ => .inl
  unfold State.serverRelease
  rw [foldl_terminate_kill]
  refine { closed with claimed := ?_, fits := ?_ }
  · intro thread member
    have old := closed.fits thread member
    exact ⟨old.loose, old.owner, old.picker, old.withdrawing, old.fresh⟩
  · intro t member
    have old := closed.claimed t member
    unfold Claimed at old ⊢
    rw [if_neg (calls t member)] at old ⊢
    exact old

end VendorModules.Smci.State
