import Mathlib

namespace VendorModules.Lib

/-! Workers side by side, one of which goes on at a time. A worker may have a claim that it
shares with no other. -/

variable {α β : Type*} {workers : List α} {k : Nat} {a b : α} {claim : α → Option β}

theorem split_of_getElem? (here : workers[k]? = some a) :
    ∃ before after, workers = before ++ a :: after ∧
      ∀ next, workers.set k next = before ++ next :: after := by
  obtain ⟨bound, rfl⟩ := List.getElem?_eq_some_iff.mp here
  refine ⟨workers.take k, workers.drop (k + 1), ?_, fun next => ?_⟩
  · rw [List.getElem_cons_drop, List.take_append_drop]
  · exact List.set_eq_take_append_cons_drop.trans (if_pos bound)

theorem perm_of_getElem? (here : workers[k]? = some a) :
    ∃ rest, workers.Perm (a :: rest) ∧ (∀ next, (workers.set k next).Perm (next :: rest)) ∧
      (workers.eraseIdx k).Perm rest := by
  obtain ⟨bound, rfl⟩ := List.getElem?_eq_some_iff.mp here
  refine ⟨workers.eraseIdx k, (List.getElem_cons_eraseIdx_perm bound).symm, fun next => ?_,
    List.Perm.refl _⟩
  exact List.set_perm_cons_eraseIdx bound next

theorem mem_set_self (here : workers[k]? = some a) : b ∈ workers.set k b :=
  List.mem_set (List.getElem?_eq_some_iff.mp here).1 b

theorem mem_set_of_ne {worker : α} (member : worker ∈ workers) (here : workers[k]? = some a)
    (differs : worker ≠ a) : worker ∈ workers.set k b := by
  obtain ⟨before, after, split, set⟩ := split_of_getElem? here
  rw [split] at member
  rw [set]
  rcases List.mem_append.mp member with earlier | member
  · exact List.mem_append_left _ earlier
  · refine List.mem_append_right _ (List.mem_cons_of_mem _ ?_)
    exact (List.mem_cons.mp member).resolve_left differs

theorem le_sum_map (member : a ∈ workers) (weight : α → Nat) :
    weight a ≤ (workers.map weight).sum := by
  obtain ⟨before, after, rfl⟩ := List.append_of_mem member
  simp only [List.map_append, List.map_cons, List.sum_append, List.sum_cons]
  omega

theorem sum_map_set_add (here : workers[k]? = some a) (weight : α → Nat) :
    ((workers.set k b).map weight).sum + weight a = (workers.map weight).sum + weight b := by
  obtain ⟨before, after, split, set⟩ := split_of_getElem? here
  rw [set, split]
  simp only [List.map_append, List.map_cons, List.sum_append, List.sum_cons]
  omega

theorem sum_map_set_add_of_apart (weight weight' : α → Nat) (here : workers[k]? = some a)
    (others : ∀ j worker, j ≠ k → workers[j]? = some worker → weight' worker = weight worker) :
    ((workers.set k b).map weight').sum + weight a = (workers.map weight).sum + weight' b := by
  induction workers generalizing k with
  | nil => cases here
  | cons worker workers ih =>
    cases k with
    | zero =>
      have head : worker = a := Option.some.inj here
      have rest : workers.map weight' = workers.map weight := by
        refine List.map_congr_left fun other member => ?_
        obtain ⟨j, there⟩ := List.getElem?_of_mem member
        exact others (j + 1) other (Nat.succ_ne_zero j) there
      simp only [List.set_cons_zero, List.map_cons, List.sum_cons, rest, head]
      omega
    | succ k =>
      have rest := ih here fun j other apart there =>
        others (j + 1) other (fun same => apart (Nat.succ.inj same)) there
      have head := others 0 worker (Nat.succ_ne_zero k).symm rfl
      simp only [List.set_cons_succ, List.map_cons, List.sum_cons, head]
      omega

theorem sum_map_add_of_mem [DecidableEq α] {weight weight' : α → Nat} (nodup : workers.Nodup)
    (member : a ∈ workers) (others : ∀ worker ∈ workers, worker ≠ a → weight' worker = weight worker) :
    (workers.map weight').sum + weight a = (workers.map weight).sum + weight' a := by
  have split := List.perm_cons_erase member
  have rest : (workers.erase a).map weight' = (workers.erase a).map weight :=
    List.map_congr_left fun other there =>
      others other (List.mem_of_mem_erase there) (nodup.mem_erase_iff.mp there).1
  rw [(split.map weight').sum_eq, (split.map weight).sum_eq]
  simp only [List.map_cons, List.sum_cons, rest]
  omega

theorem nodup_filterMap_set (nodup : (workers.filterMap claim).Nodup)
    (here : workers[k]? = some a) (kept : claim b = claim a ∨ claim b = none) :
    ((workers.set k b).filterMap claim).Nodup := by
  obtain ⟨before, after, split, set⟩ := split_of_getElem? here
  rw [split] at nodup
  rw [set]
  rcases kept with same | none
  · simpa only [List.filterMap_append, List.filterMap_cons, same] using nodup
  · refine nodup.sublist ?_
    simp only [List.filterMap_append, List.filterMap_cons, none]
    refine List.Sublist.append_left ?_ _
    split
    · exact .refl _
    · exact List.sublist_cons_self _ _

theorem nodup_filterMap_claim (nodup : (workers.filterMap claim).Nodup)
    (here : workers[k]? = some a) (free : ∀ worker ∈ workers, claim worker ≠ claim b) :
    ((workers.set k b).filterMap claim).Nodup := by
  obtain ⟨before, after, split, set⟩ := split_of_getElem? here
  have others : ∀ worker ∈ before ++ after, claim worker ≠ claim b := fun worker member =>
    free worker (by
      rw [split]
      rcases List.mem_append.mp member with earlier | later
      · exact List.mem_append_left _ earlier
      · exact List.mem_append_right _ (List.mem_cons_of_mem _ later))
  have rest : ((before ++ after).filterMap claim).Nodup := by
    refine nodup.sublist ?_
    rw [split, List.filterMap_append, List.filterMap_append, List.filterMap_cons]
    refine List.Sublist.append_left ?_ _
    split
    · exact .refl _
    · exact List.sublist_cons_self _ _
  rw [set, (List.perm_middle.filterMap claim).nodup_iff, List.filterMap_cons]
  split
  · exact rest
  · rename_i c claimed
    refine List.nodup_cons.mpr ⟨fun member => ?_, rest⟩
    obtain ⟨worker, there, same⟩ := List.mem_filterMap.mp member
    exact others worker there (same.trans claimed.symm)

section Apart

variable {j : Nat} (here : workers[k]? = some a) (there : workers[j]? = some b) (apart : j ≠ k)
include here there apart

theorem add_le_sum_map (weight : α → Nat) : weight a + weight b ≤ (workers.map weight).sum := by
  induction workers generalizing j k with
  | nil => cases here
  | cons worker workers ih =>
    rw [List.map_cons, List.sum_cons]
    cases k with
    | zero =>
      cases j with
      | zero => exact absurd rfl apart
      | succ j =>
        have head : worker = a := Option.some.inj here
        have tail : workers[j]? = some b := there
        have := le_sum_map (List.mem_of_getElem? tail) weight
        rw [head]
        omega
    | succ k =>
      cases j with
      | zero =>
        have head : worker = b := Option.some.inj there
        have tail : workers[k]? = some a := here
        have := le_sum_map (List.mem_of_getElem? tail) weight
        rw [head]
        omega
      | succ j =>
        have := ih here there (fun same => apart (congrArg (· + 1) same))
        omega

theorem claim_ne_of_nodup (nodup : (workers.filterMap claim).Nodup) {c : β}
    (claimed : claim b = some c) : claim a ≠ some c := by
  induction workers generalizing j k with
  | nil => cases here
  | cons worker workers ih =>
    have rest : (workers.filterMap claim).Nodup :=
      nodup.sublist ((List.sublist_cons_self worker workers).filterMap claim)
    have once : ∀ other ∈ workers, claim worker = some c → claim other ≠ some c := by
      intro other member first second
      rw [List.filterMap_cons, first] at nodup
      exact (List.nodup_cons.mp nodup).1 (List.mem_filterMap.mpr ⟨other, member, second⟩)
    cases k with
    | zero =>
      cases j with
      | zero => exact absurd rfl apart
      | succ j =>
        have head : worker = a := Option.some.inj here
        intro first
        exact once b (List.mem_of_getElem? there) (head ▸ first) claimed
    | succ k =>
      cases j with
      | zero =>
        have head : worker = b := Option.some.inj there
        exact once a (List.mem_of_getElem? here) (head ▸ claimed)
      | succ j => exact ih here there (fun same => apart (congrArg (· + 1) same)) rest

end Apart

theorem forall_mem_set_of_apart {P : α → Prop} (new : P b)
    (others : ∀ j worker, j ≠ k → workers[j]? = some worker → P worker) :
    ∀ worker ∈ workers.set k b, P worker := by
  intro worker member
  obtain ⟨j, there⟩ := List.getElem?_of_mem member
  rw [List.getElem?_set] at there
  split at there
  · split at there
    · exact Option.some.inj there ▸ new
    · cases there
  · rename_i apart
    exact others j worker (fun same => apart same.symm) there

theorem forall_mem_set {P : α → Prop} (nodup : (workers.filterMap claim).Nodup)
    (here : workers[k]? = some a) (new : P b)
    (others : ∀ worker ∈ workers, (∀ c, claim worker = some c → claim a ≠ some c) →
      P worker) :
    ∀ worker ∈ workers.set k b, P worker := by
  obtain ⟨before, after, split, set⟩ := split_of_getElem? here
  rw [split, List.filterMap_append, List.filterMap_cons] at nodup
  have apart : ∀ worker, worker ∈ before ∨ worker ∈ after → ∀ c, claim worker = some c →
      claim a ≠ some c := by
    intro worker place c claimed same
    rw [same] at nodup
    rcases place with earlier | later
    · exact (List.nodup_append.mp nodup).2.2 c
        (List.mem_filterMap.mpr ⟨worker, earlier, claimed⟩) c (List.mem_cons_self ..) rfl
    · exact (List.nodup_cons.mp (List.nodup_append.mp nodup).2.1).1
        (List.mem_filterMap.mpr ⟨worker, later, claimed⟩)
  intro worker member
  rw [set] at member
  rcases List.mem_append.mp member with earlier | member
  · exact others worker (by simp [split, earlier]) (apart worker (.inl earlier))
  · rcases List.mem_cons.mp member with rfl | later
    · exact new
    · exact others worker (by simp [split, later]) (apart worker (.inr later))

end VendorModules.Lib
