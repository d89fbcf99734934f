import VendorModules.CamSync.Invariant

namespace VendorModules.CamSync

open Function Lib SyncTableRow

variable {s s' : State} {k : Nat} {activity activity' : Activity}

/-! Calls come and go on. -/

/-! ## Visits -/

theorem visits_congr (same : s'.running = s.running) : s'.visits = s.visits := by
  funext group member
  rw [State.visits, State.visits, same]

theorem visits_set (s' : State) (here : s.running[k]? = some activity)
    (moved : s'.running = s.running.set k activity') (group member : Nat) :
    s'.visits group member + activity.visits group member =
      s.visits group member + activity'.visits group member := by
  unfold State.visits
  rw [moved]
  exact sum_map_set_add here _

theorem visits_append (moved : s'.running = s.running ++ [activity]) (group member : Nat) :
    s'.visits group member = s.visits group member + activity.visits group member := by
  simp only [State.visits, moved, List.map_append, List.sum_append, List.map_singleton,
    List.sum_singleton]

def Activity.Plain : Activity → Prop
  | .signaling _ _ _ _ | .visiting _ _ _ _ => False
  | _ => True

theorem Activity.Plain.visits (plain : activity.Plain) (group member : Nat) :
    activity.visits group member = 0 := by
  cases activity with
  | visiting child status eventCause parents => exact plain.elim
  | signaling idx obj status eventCause => exact plain.elim
  | _ => rfl

theorem resume_resume : (s.resume k activity).resume k activity' = s.resume k activity' := by
  simp only [State.resume, List.set_set]

theorem get_resume (here : s.running[k]? = some activity) :
    (s.resume k activity').running[k]? = some activity' := by
  obtain ⟨bound, -⟩ := List.getElem?_eq_some_iff.mp here
  exact List.getElem?_set_self bound

/-! ## What the calls at work see -/

structure State.Frames (s s' : State) (idx : Nat) : Prop where
  bitmap : s'.bitmap idx = s.bitmap idx
  live : s'.Live idx ↔ s.Live idx
  type : (s'.table idx).type = (s.table idx).type
  locked : s'.locked idx = s.locked idx
  ident : s'.history.ident idx = s.history.ident idx
  members : s.Live idx → s'.history.members (s.history.ident idx) =
    s.history.members (s.history.ident idx)

theorem State.Frames.reserved {idx : Nat} (frames : s.Frames s' idx)
    (reserved : s.Reserved idx) : s'.Reserved idx :=
  ⟨reserved.1, frames.bitmap.trans reserved.2.1, mt frames.live.mp reserved.2.2⟩

theorem State.Frames.merges {idx : Nat} {linked rest : List Nat} (frames : s.Frames s' idx)
    (merges : s.Merges idx linked rest) : s'.Merges idx linked rest where
  live := frames.live.mpr merges.live
  group := frames.type.trans merges.group
  locked := frames.locked.trans merges.locked
  members := by rw [frames.ident, frames.members merges.live, merges.members]
  bound := merges.bound
  nonempty := merges.nonempty

theorem Activity.Sound.frame (sound : activity.Sound s)
    (framed : ∀ idx, activity.target = some idx → s.Frames s' idx)
    (signaled : ∀ obj state, s.history.signaled obj = some state →
      s'.history.signaled obj = some state)
    (entries : ∀ parent : SyncParentInfo, parent.Sound s → parent.Sound s') :
    activity.Sound s' := by
  cases activity with
  | creating idx synxObj => exact (framed idx rfl).reserved sound
  | checking syncObjs rest => exact sound
  | locking idx syncObjs => exact ⟨(framed idx rfl).reserved sound.1, sound.2⟩
  | merging idx linked rest => exact (framed idx rfl).merges sound
  | undoing idx linked => exact sound
  | signaling idx obj status eventCause => exact signaled obj status sound
  | visiting child status eventCause parents =>
    exact ⟨signaled child status sound.1, fun parent held => entries parent (sound.2 parent held)⟩
  | destroying idx children parents => exact (framed idx rfl).reserved sound
  | returned => trivial

theorem Activity.Sound.same (sound : activity.Sound s) (table : s'.table = s.table)
    (bitmap : s'.bitmap = s.bitmap) (locked : s'.locked = s.locked)
    (history : s'.history = s.history) : activity.Sound s' := by
  obtain ⟨bitmap', table', locked', running', history'⟩ := s'
  simp only at table bitmap locked history
  subst table bitmap locked history
  exact sound.frame (fun idx _ => ⟨rfl, Iff.rfl, rfl, rfl, rfl, fun _ => rfl⟩) (fun _ _ same => same)
    fun _ sound => sound

theorem State.lives_iff {idx obj : Nat} (place : s.history.rowOf obj = idx) :
    s.Lives obj ↔ s.Live idx ∧ s.history.ident idx = obj := by
  rw [State.Lives, place]

namespace State.Inv

variable (inv : s.Inv)

include inv

theorem sound_of_get (here : s.running[k]? = some activity) : activity.Sound s :=
  inv.sound activity (List.mem_of_getElem? here)

theorem ne_zero {idx : Nat} (live : s.Live idx) : idx ≠ 0 := fun zero =>
  inv.zero (zero ▸ live)

theorem ident_inj {idx idx' : Nat} (live : s.Live idx) (live' : s.Live idx')
    (same : s.history.ident idx = s.history.ident idx') : idx = idx' := by
  rw [← (inv.placed idx live).1, ← (inv.placed idx' live').1, same]

theorem bit_of_target {idx : Nat} (running : activity ∈ s.running)
    (target : activity.target = some idx) : s.bitmap idx = true := by
  have sound := inv.sound activity running
  cases activity with
  | creating idx' synxObj => exact Option.some.inj target ▸ sound.2.1
  | locking idx' syncObjs => exact Option.some.inj target ▸ sound.1.2.1
  | merging idx' linked rest => exact Option.some.inj target ▸ inv.bit _ sound.live
  | destroying idx' children parents => exact Option.some.inj target ▸ sound.2.1
  | checking syncObjs rest => cases target
  | undoing idx' linked => cases target
  | signaling idx' obj status eventCause => cases target
  | visiting child status eventCause parents => cases target
  | returned => cases target

theorem not_target {idx : Nat} (live : s.Live idx) (unlocked : s.locked idx = false)
    (running : activity ∈ s.running) : activity.target ≠ some idx := fun target => by
  have sound := inv.sound activity running
  cases activity with
  | creating idx' synxObj => exact sound.2.2 (Option.some.inj target ▸ live)
  | locking idx' syncObjs => exact sound.1.2.2 (Option.some.inj target ▸ live)
  | merging idx' linked rest =>
    have locked := sound.locked
    rw [Option.some.inj target, unlocked] at locked
    cases locked
  | destroying idx' children parents => exact sound.2.2 (Option.some.inj target ▸ live)
  | checking syncObjs rest => cases target
  | undoing idx' linked => cases target
  | signaling idx' obj status eventCause => cases target
  | visiting child status eventCause parents => cases target
  | returned => cases target

theorem apart {idx : Nat} (here : s.running[k]? = some activity)
    (target : activity.target = some idx) :
    ∀ other ∈ (s.resume k .returned).running, other.target ≠ some idx :=
  forall_mem_set inv.targets here (fun same => nomatch same) fun _ _ distinct same =>
    distinct idx same target

theorem pausing_mono {idx : Nat} (live : s.Live idx)
    (signaled : (s.history.signaled (s.history.ident idx)).isSome)
    (linked : (s.table idx).parentsList ≠ [])
    (same : s'.history.ident idx = s.history.ident idx)
    (kept : ∀ obj status eventCause, .signaling idx obj status eventCause ∈ s.running →
      .signaling idx obj status eventCause ∈ s'.running) : s'.Pausing idx := by
  obtain ⟨status, eventCause, running⟩ := inv.pausing idx live signaled linked
  exact ⟨status, eventCause, same ▸ kept _ _ _ running⟩

/-! ## Calls -/

theorem start (plain : activity.Plain) (sound : activity.Sound s)
    (fresh : ∀ other ∈ s.running, ∀ idx, activity.target = some idx →
      other.target ≠ some idx) : (s.start activity).Inv := by
  refine
    { inv with
      tally := fun idx live => (inv.tally idx live).congr (fun member => ?_) fun _ _ => Iff.rfl
      pausing := fun idx live signaled linked =>
        inv.pausing_mono live signaled linked rfl fun _ _ _ => List.mem_append_left _
      sound := fun other running => ?_
      targets := ?_ }
  · have visits : (s.start activity).visits (s.history.ident idx) member =
        s.visits (s.history.ident idx) member := by
      rw [visits_append rfl, plain.visits, Nat.add_zero]
    exact congrArg (· + _) visits
  · rcases List.mem_append.mp running with before | new
    · exact (inv.sound other before).same rfl rfl rfl rfl
    · obtain rfl := List.mem_singleton.mp new
      exact sound.same rfl rfl rfl rfl
  · have moved : (s.start activity).running = s.running ++ [activity] := rfl
    rw [moved, List.filterMap_append, List.nodup_append]
    refine ⟨inv.targets, ?_, fun idx before idx' new same => ?_⟩
    · cases target : activity.target <;> simp [target]
    · obtain ⟨other, running, targeted⟩ := List.mem_filterMap.mp before
      obtain ⟨other', running', targeted'⟩ := List.mem_filterMap.mp new
      rw [List.mem_singleton.mp running'] at targeted'
      exact fresh other running idx' targeted' (same ▸ targeted)

theorem resume (here : s.running[k]? = some activity) (plain : activity.Plain)
    (plain' : activity'.Plain) (sound : activity'.Sound s)
    (targets : ((s.running.set k activity').filterMap Activity.target).Nodup) :
    (s.resume k activity').Inv := by
  refine
    { inv with
      tally := fun idx live => (inv.tally idx live).congr (fun member => ?_) fun _ _ => Iff.rfl
      pausing := fun idx live signaled linked =>
        inv.pausing_mono live signaled linked rfl fun _ _ _ running =>
          mem_set_of_ne running here fun same => by
            rw [← same] at plain
            exact plain
      sound := fun other running => ?_
      targets := targets }
  · have visits : (s.resume k activity').visits (s.history.ident idx) member =
        s.visits (s.history.ident idx) member := by
      have total := visits_set (s.resume k activity') here rfl (s.history.ident idx) member
      rwa [plain.visits, plain'.visits] at total
    exact congrArg (· + _) visits
  · rcases List.mem_or_eq_of_mem_set running with before | rfl
    · exact (inv.sound other before).same rfl rfl rfl rfl
    · exact sound.same rfl rfl rfl rfl

theorem proceed (here : s.running[k]? = some activity) (plain : activity.Plain)
    (plain' : activity'.Plain) (sound : activity'.Sound s)
    (target : activity'.target = activity.target ∨ activity'.target = none) :
    (s.resume k activity').Inv :=
  inv.resume here plain plain' sound (nodup_filterMap_set inv.targets here target)

theorem checkOut (here : s.running[k]? = some activity) (plain : activity.Plain) :
    (s.resume k .returned).Inv :=
  inv.proceed here plain trivial trivial (.inr rfl)

theorem claim {idx : Nat} (here : s.running[k]? = some activity) (plain : activity.Plain)
    (plain' : activity'.Plain) (sound : activity'.Sound s)
    (target : activity'.target = some idx)
    (free : ∀ other ∈ s.running, other.target ≠ some idx) : (s.resume k activity').Inv :=
  inv.resume here plain plain' sound
    (nodup_filterMap_claim inv.targets here fun other running => target ▸ free other running)

theorem reserve {idx : Nat} (free : s.FreeBit idx) :
    State.Inv { s with bitmap := update s.bitmap idx true } := by
  refine
    { inv with
      bit := fun other live => ?_
      sound := fun activity running => (inv.sound activity running).frame
        (fun other target => ⟨?_, Iff.rfl, rfl, rfl, rfl, fun _ => rfl⟩) (fun _ _ same => same)
        fun _ sound => sound }
  · by_cases same : other = idx
    · rw [same]
      exact update_self ..
    · exact (update_of_ne same ..).trans (inv.bit other live)
  · refine update_of_ne (fun same => ?_) ..
    have bit := inv.bit_of_target running target
    rw [same, free.2.2] at bit
    cases bit

theorem not_live_of_free {idx : Nat} (free : s.FreeBit idx) : ¬ s.Live idx := fun live => by
  have bit := inv.bit idx live
  rw [free.2.2] at bit
  cases bit

theorem not_target_of_free {idx : Nat} (free : s.FreeBit idx) :
    ∀ other ∈ s.running, other.target ≠ some idx := fun other running target => by
  have bit := inv.bit_of_target running target
  rw [free.2.2] at bit
  cases bit

theorem reserved_of_free {idx : Nat} (free : s.FreeBit idx) :
    State.Reserved { s with bitmap := update s.bitmap idx true } idx :=
  ⟨free.1, update_self .., inv.not_live_of_free free⟩

theorem lock (idx : Nat) : State.Inv { s with locked := update s.locked idx true } := by
  refine
    { inv with
      settled := fun other live group unlocked => inv.settled other live group ?_
      sound := fun activity running => ?_ }
  · by_cases same : other = idx
    · simp [same] at unlocked
    · exact (update_of_ne same ..).symm.trans unlocked
  · have sound := inv.sound activity running
    cases activity with
    | merging idx' linked rest =>
      refine { sound with locked := ?_ }
      by_cases same : idx' = idx
      · rw [same]
        exact update_self ..
      · exact (update_of_ne same ..).trans sound.locked
    | _ => exact sound

end State.Inv

end VendorModules.CamSync
