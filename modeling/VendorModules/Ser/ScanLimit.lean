import VendorModules.Lib.Workers
import VendorModules.Ser.Scans

namespace VendorModules.Ser

namespace Machine

variable {machine last : Machine} {vdevs : Finset VdevId}

theorem moving_spawn {thread : List Frame} (none : thread.countP Frame.counts = 0) :
    (machine.spawn thread).moving = machine.moving := by
  have frames : (machine.spawn thread).frames = machine.frames ++ thread := by
    simp [Machine.frames, Machine.spawn]
  simp [moving, frames, none]

theorem Sound.ranScan (sound : machine.Sound vdevs .scan) (few : vdevs.card ≤ pdevMaxVdevs)
    {i : Nat} {choice : Choice} (promised : machine.Promised vdevs (.run i choice))
    (ran : machine.run i choice = some last) :
    ∃ frame new, machine.head? i = some frame ∧
      ScanRan machine.queue choice.lookups.isActiveScanCmdAllowed frame new last.queue ∧
        last.moving + (if frame.counts then 1 else 0) =
          machine.moving + new.countP Frame.counts := by
  obtain ⟨frame, new, callbacks, others, ran, head, before, now, -, -⟩ :=
    sound.ran few promised ran
  have fits := sound.fits frame (before.mem_iff.2 List.mem_cons_self)
  refine ⟨frame, new, head, ran.scan sound.ofKind (sound.ofKind ▸ fits), ?_⟩
  unfold moving
  rw [before.countP_eq, now.countP_eq, List.countP_cons, List.countP_append]
  omega

theorem Sound.requestScan (sound : machine.Sound vdevs .scan) (lookups : Lookups)
    (cmd? : Option Command) :
    let next := (machine.request lookups cmd?).2
    next.moving = machine.moving ∧
      ((next.queue.active.length = machine.queue.active.length ∧
          (next.queue.pending = machine.queue.pending ∨ machine.queue.pending ≠ [] ∨
            lookups.isActiveScanCmdAllowed = false)) ∨
        (next.queue.active.length = machine.queue.active.length + 1 ∧
          next.queue.pending = machine.queue.pending ∧
            lookups.isActiveScanCmdAllowed = true)) := by
  have frames := frames_request machine lookups cmd?
  have kind := sound.ofKind
  refine ⟨?_, ?_⟩
  · unfold moving
    rw [frames, List.countP_append]
    cases (machine.queue.enqueueCmd lookups machine.tickets cmd?).2.1 <;> rfl
  · cases ran : machine.queue.enqueueCmd lookups machine.tickets cmd? with
    | mk status result =>
      obtain ⟨taken, after⟩ := result
      have queue : (machine.request lookups cmd?).2.queue = after := by
        simp only [Machine.request, ran]
      rw [queue]
      rcases sound.queue.linked.enqueueCmd ran with ⟨-, -, rfl, -⟩ | ⟨cmd, -, -, enqueued⟩
      · exact .inl ⟨rfl, .inl rfl⟩
      have counted : machine.queue.counted cmd = machine.queue := by
        simp [Queue.counted, Queue.Counts, kind]
      have admits : machine.queue.admits lookups cmd =
          (lookups.isActiveScanCmdAllowed && machine.queue.pending.isEmpty) := by
        simp [Queue.admits, Queue.isActiveCmdAllowed, kind]
      cases enqueued with
      | refused => exact .inl ⟨rfl, .inl rfl⟩
      | turnedAway =>
        rw [counted]
        exact .inl ⟨rfl, .inl rfl⟩
      | full =>
        simp only [kind, reduceCtorEq, if_false, counted]
        exact .inl ⟨rfl, .inl rfl⟩
      | pending _ _ _ waits _ lists =>
        rw [counted] at lists
        refine .inl ⟨congrArg List.length lists.active, .inr ?_⟩
        rw [admits] at waits
        cases allowed : lookups.isActiveScanCmdAllowed with
        | false => exact .inr rfl
        | true => simpa [allowed] using waits
      | active _ _ _ goes _ lists =>
        rw [counted] at lists
        have active := lists.active
        have pending := lists.pending
        refine .inr ⟨?_, ?_, ?_⟩
        · refine (congrArg List.length ((Queue.markActive_active _).trans active)).trans ?_
          exact Queue.length_place _ _ _
        · exact (Queue.markActive_pending _).trans pending
        · rw [admits, Bool.and_eq_true] at goes
          exact goes.1

theorem head?_spawn {i : Nat} {frame : Frame} (head : machine.head? i = some frame)
    (thread : List Frame) : (machine.spawn thread).head? i = some frame := by
  unfold head? at head ⊢
  obtain ⟨frames, there, first⟩ := Option.bind_eq_some_iff.1 head
  refine Option.bind_eq_some_iff.2 ⟨frames, ?_, first⟩
  have inside := (List.getElem?_eq_some_iff.1 there).1
  simp only [spawn]
  rw [List.getElem?_append_left inside]
  exact there

theorem counts_of_head {move : Move} (counts : machine.counts move = true)
    (kept : ∀ i frame, machine.head? i = some frame → frame.counts = true →
      last.head? i = some frame) : last.counts move = true := by
  cases move with
  | request => rfl
  | run i choice =>
    simp only [Machine.counts] at counts ⊢
    obtain ⟨frame, head, counting⟩ := (Option.any_eq_true _ _).1 counts
    rw [kept i frame head counting]
    exact counting
  | remove | cancel | fire | disable => cases counts

/-- A step that does not count: what it does to a scan queue's lists, and that it leaves a
thread that counts where it is. -/
theorem Sound.otherScan (sound : machine.Sound vdevs .scan)
    (few : vdevs.card ≤ pdevMaxVdevs) {move : Move} (silent : machine.counts move = false)
    (stepped : machine.step move = some last) :
    last.Sound vdevs .scan ∧
      (∀ i frame, machine.head? i = some frame → frame.counts = true →
        last.head? i = some frame) ∧
      ((last.queue.active.length = machine.queue.active.length ∧
          last.moving = machine.moving ∧
            (last.queue.pending = machine.queue.pending ∨ machine.queue.pending ≠ [])) ∨
        (machine.locks move = true ∧
          last.queue.active.length + 1 = machine.queue.active.length ∧
            last.queue.pending = machine.queue.pending ∧
              (last.moving = machine.moving + 1 ∨
                last.moving = machine.moving ∧ ∃ i choice frame call n,
                  move = .run i choice ∧ machine.head? i = some frame ∧
                    frame.cancels? = some call ∧ n ∈ machine.queue.active ∧
                      machine.queue.isSkipped call n = false))) := by
  have spawned : ∀ thread : List Frame, thread.countP Frame.counts = 0 →
      machine.spawn thread = last →
      (∀ i frame, machine.head? i = some frame → frame.counts = true →
        last.head? i = some frame) ∧
        (last.queue.active.length = machine.queue.active.length ∧
          last.moving = machine.moving ∧
            (last.queue.pending = machine.queue.pending ∨ machine.queue.pending ≠ [])) := by
    rintro thread none rfl
    exact ⟨fun i frame head _ => head?_spawn head thread, rfl, moving_spawn none, .inl rfl⟩
  cases move with
  | request => cases silent
  | remove key =>
    have next := sound.step few ⟨.remove key, trivial, stepped⟩
    obtain ⟨heads, same⟩ := spawned _ rfl (Option.some.inj stepped)
    exact ⟨next, heads, .inl same⟩
  | cancel calls =>
    have next := sound.step few ⟨.cancel calls, trivial, stepped⟩
    have none : (calls.map fun cancelled =>
        Frame.cancel cancelled.1 cancelled.2).countP Frame.counts = 0 := by
      simp [List.countP_eq_zero, Frame.counts]
    obtain ⟨heads, same⟩ := spawned _ none (Option.some.inj stepped)
    exact ⟨next, heads, .inl same⟩
  | fire n =>
    have next := sound.step few ⟨.fire n, trivial, stepped⟩
    simp only [Machine.step] at stepped
    split at stepped
    · split at stepped
      · obtain ⟨heads, same⟩ := spawned _ rfl (Option.some.inj stepped)
        exact ⟨next, heads, .inl same⟩
      · cases stepped
    · cases stepped
  | disable vdev =>
    have next := sound.step few ⟨.disable vdev, trivial, stepped⟩
    obtain rfl := Option.some.inj stepped
    exact ⟨next, fun i frame head _ => head, .inl ⟨rfl, rfl, .inl rfl⟩⟩
  | run i choice =>
    have promised : machine.Promised vdevs (.run i choice) := by
      intro frame head counts
      simp only [Machine.counts, Option.any_eq_false] at silent
      exact absurd counts (by simpa using silent frame head)
    have next := sound.step few ⟨.run i choice, promised, stepped⟩
    have heads : ∀ j frame, machine.head? j = some frame → frame.counts = true →
        last.head? j = some frame := by
      intro j frame head counts
      have other : j ≠ i := by
        rintro rfl
        simp only [Machine.counts, Option.any_eq_false] at silent
        exact absurd counts (by simpa using silent frame head)
      have ran : machine.run i choice = some last := stepped
      unfold Machine.run at ran
      split at ran
      · obtain ⟨outcome, -, rfl⟩ := Option.map_eq_some_iff.1 ran
        unfold head? at head ⊢
        simpa [List.getElem?_set_ne (Ne.symm other)] using head
      · cases ran
    refine ⟨next, heads, ?_⟩
    obtain ⟨frame, new, head, ran, count⟩ := sound.ranScan few promised stepped
    have quiet : frame.counts = false := by
      simp only [Machine.counts, Option.any_eq_false] at silent
      simpa using silent frame head
    rw [quiet] at count
    simp only [Bool.false_eq_true, if_false, Nat.add_zero] at count
    cases ran with
    | quiet active pending _ none =>
      exact .inl ⟨active, by omega, .inl pending⟩
    | dequeue active pending _ one locks =>
      refine .inr ⟨?_, active, pending, .inl (by omega)⟩
      simp [Machine.locks, head, locks]
    | stay _ _ counts | move _ _ counts =>
      rw [quiet] at counts
      cases counts
    | @cancelActive call n active pending _ none cancels member chosen =>
      refine .inr ⟨?_, active, pending, .inr ⟨by omega, i, choice, frame, call, n, rfl,
        head, cancels, member, chosen⟩⟩
      have locks : frame.locks = true := by
        cases frame <;> first | rfl | cases cancels
      simp [Machine.locks, head, locks]
    | cancelPending active pending _ none =>
      exact .inl ⟨active, by omega, .inr pending⟩

theorem Sound.countScan (sound : machine.Sound vdevs .scan) (few : vdevs.card ≤ pdevMaxVdevs)
    {move : Move} {total maxActiveScans : Nat} (counts : machine.counts move = true)
    (promised : machine.Promised vdevs (move.counted total maxActiveScans))
    (stepped : machine.step (move.counted total maxActiveScans) = some last) :
    last.Sound vdevs .scan ∧
      ((last.queue.active.length = machine.queue.active.length ∧
          last.moving = machine.moving ∧
            (last.queue.pending = machine.queue.pending ∨ machine.queue.pending ≠ [] ∨
              maxActiveScans ≤ total)) ∨
        (last.queue.active.length = machine.queue.active.length ∧
          last.moving + 1 = machine.moving ∧
            last.queue.pending = machine.queue.pending ∧
              (maxActiveScans ≤ total ∨
                machine.queue.pending = [] ∧ move.promotes = true)) ∨
        (last.queue.active.length = machine.queue.active.length + 1 ∧ total < maxActiveScans ∧
          (last.moving = machine.moving ∧ last.queue.pending = machine.queue.pending ∨
            last.moving + 1 = machine.moving ∧ machine.queue.pending ≠ []))) := by
  refine ⟨sound.step few ⟨_, promised, stepped⟩, ?_⟩
  cases move with
  | request lookups cmd? =>
    obtain rfl := Option.some.inj stepped
    obtain ⟨moving, ⟨active, pending⟩ | ⟨active, pending, allowed⟩⟩ :=
      sound.requestScan { lookups with
        activeScans := total
        maxActiveScans := maxActiveScans } cmd?
    · refine .inl ⟨active, moving, pending.imp id (Or.imp id fun full => ?_)⟩
      simpa [Lookups.isActiveScanCmdAllowed] using full
    · refine .inr (.inr ⟨active, ?_, .inl ⟨moving, pending⟩⟩)
      simpa [Lookups.isActiveScanCmdAllowed] using allowed
  | run i choice =>
    obtain ⟨frame, new, head, ran, count⟩ := sound.ranScan few promised stepped
    have counting : frame.counts = true := by
      simpa [Machine.counts, head] using counts
    rw [if_pos counting] at count
    cases ran with
    | quiet _ _ silent | dequeue _ _ silent | cancelActive _ _ silent
    | cancelPending _ _ silent =>
      rw [counting] at silent
      cases silent
    | stay active pending _ none stuck =>
      refine .inr (.inl ⟨active, by omega, pending, ?_⟩)
      rcases stuck with empty | full
      · exact .inr ⟨empty, rfl⟩
      · refine .inl ?_
        simpa [Lookups.isActiveScanCmdAllowed] using full
    | move active pending _ none may =>
      refine .inr (.inr ⟨active, ?_, .inr ⟨by omega, pending⟩⟩)
      simpa [Lookups.isActiveScanCmdAllowed] using may
  | remove | cancel | fire | disable => cases counts

end Machine

namespace Psoc

variable {psoc after : Psoc} {vdevs : Nat → Finset VdevId} {p : Nat} {old new : ScanPdev}

structure Counting (vdevs : Nat → Finset VdevId) (p : Nat) (machine : Machine)
    (count : Count) : Prop where
  counts : machine.counts count.move = true
  own : p < count.reads → machine.queue.active.length ≤ count.total
  promised : ∀ lookups cmd?, count.move = .request lookups cmd? →
    ∀ cmd ∈ cmd?, cmd.cmdType.kind = .scan ∧ cmd.vdev ∈ vdevs p

structure Sound (vdevs : Nat → Finset VdevId) (psoc : Psoc) : Prop where
  few : psoc.maxActiveScans ≤ maxActiveScanCmds
  machine : ∀ (p : Nat) (pdev : ScanPdev), psoc.pdevs[p]? = some pdev →
    pdev.machine.Sound (vdevs p) .scan
  count : ∀ (p : Nat) (pdev : ScanPdev), psoc.pdevs[p]? = some pdev →
    ∀ count, pdev.count = some count → Counting vdevs p pdev.machine count

theorem Sound.setPdev (sound : psoc.Sound vdevs)
    (machine : new.machine.Sound (vdevs p) .scan)
    (count : ∀ count, new.count = some count → Counting vdevs p new.machine count) :
    (psoc.setPdev p new).Sound vdevs := by
  have pdevs : ∀ q pdev, (psoc.setPdev p new).pdevs[q]? = some pdev →
      (q = p ∧ pdev = new) ∨ psoc.pdevs[q]? = some pdev := by
    intro q pdev there
    by_cases same : p = q
    · subst same
      refine .inl ⟨rfl, ?_⟩
      simp only [Psoc.setPdev] at there
      obtain ⟨-, here⟩ := by simpa [List.getElem?_set_self'] using there
      exact here.symm
    · refine .inr ?_
      simpa [Psoc.setPdev, List.getElem?_set_ne same] using there
  refine ⟨sound.few, fun q pdev there => ?_, fun q pdev there other same => ?_⟩
  · rcases pdevs q pdev there with ⟨rfl, rfl⟩ | there
    · exact machine
    · exact sound.machine q pdev there
  · rcases pdevs q pdev there with ⟨rfl, rfl⟩ | there
    · exact count other same
    · exact sound.count q pdev there other same

theorem activeScans_setPdev (there : psoc.pdevs[p]? = some old) :
    (psoc.setPdev p new).activeScans + old.machine.queue.active.length =
      psoc.activeScans + new.machine.queue.active.length :=
  Lib.sum_map_set_add there _

theorem moving_setPdev (there : psoc.pdevs[p]? = some old) :
    (psoc.setPdev p new).moving + old.machine.moving = psoc.moving + new.machine.moving :=
  Lib.sum_map_set_add there _

theorem SomePending.setPdev (now : (psoc.setPdev p new).SomePending)
    (there : psoc.pdevs[p]? = some old) :
    psoc.SomePending ∨
      (old.machine.queue.pending = [] ∧ new.machine.queue.pending ≠ []) := by
  obtain ⟨pdev, member, pending⟩ := now
  rcases List.mem_or_eq_of_mem_set member with member | rfl
  · exact .inl ⟨pdev, member, pending⟩
  · by_cases empty : old.machine.queue.pending = []
    · exact .inr ⟨empty, pending⟩
    · exact .inl ⟨old, List.mem_of_getElem? there, empty⟩

def Meets (psoc : Psoc) : ScanMove → Prop
  | .conclude p => ∀ pdev ∈ psoc.pdevs[p]?, ∀ count ∈ pdev.count,
      (count.total < psoc.maxActiveScans ↔ psoc.activeScans < psoc.maxActiveScans) ∧
        (count.move.promotes = true → pdev.machine.queue.pending = [] → psoc.SomePending →
          psoc.maxActiveScans < psoc.activeScans + psoc.moving)
  | .other p (.run i _) => ∀ pdev ∈ psoc.pdevs[p]?, ∀ frame ∈ pdev.machine.head? i,
      ∀ call ∈ frame.cancels?, ∀ n ∈ pdev.machine.queue.active,
        pdev.machine.queue.isSkipped call n = false → psoc.SomePending →
          psoc.maxActiveScans < psoc.activeScans + psoc.moving
  | _ => True

structure Limited (psoc : Psoc) : Prop where
  most : psoc.activeScans ≤ psoc.maxActiveScans
  pending : psoc.SomePending → psoc.maxActiveScans ≤ psoc.activeScans + psoc.moving

def MeetingMove (vdevs : Nat → Finset VdevId) (psoc : Psoc) (move : ScanMove) : Prop :=
  Promised vdevs move ∧ psoc.Meets move

theorem Limited.setPdev_same (limited : psoc.Limited) (there : psoc.pdevs[p]? = some old)
    (same : new.machine = old.machine) : (psoc.setPdev p new).Limited := by
  have active : (psoc.setPdev p new).activeScans + old.machine.queue.active.length =
      psoc.activeScans + new.machine.queue.active.length := activeScans_setPdev there
  have moving : (psoc.setPdev p new).moving + old.machine.moving =
      psoc.moving + new.machine.moving := moving_setPdev there
  rw [same] at active moving
  refine ⟨?_, fun now => ?_⟩
  · have most := limited.most
    change (psoc.setPdev p new).activeScans ≤ psoc.maxActiveScans
    omega
  · change psoc.maxActiveScans ≤ _
    rcases now.setPdev there with before | ⟨empty, some⟩
    · have pending := limited.pending before
      omega
    · rw [same] at some
      exact absurd empty some

theorem Sound.stepCount (sound : psoc.Sound vdevs) {move : Move}
    (promised : Promised vdevs (.count p move))
    (stepped : psoc.step (.count p move) = some after) :
    after.Sound vdevs ∧ (psoc.Limited → after.Limited) := by
  simp only [Psoc.step] at stepped
  split at stepped
  next pdev there =>
    split at stepped
    next may =>
      obtain rfl := Option.some.inj stepped
      simp only [Bool.and_eq_true] at may
      refine ⟨sound.setPdev (sound.machine p pdev there) fun count same => ?_,
        fun limited => limited.setPdev_same there rfl⟩
      obtain rfl := Option.some.inj same
      refine ⟨may.2, fun before => absurd before (Nat.not_lt_zero p), ?_⟩
      rintro lookups cmd? rfl
      exact promised
    · cases stepped
  · cases stepped

theorem Sound.stepRead (sound : psoc.Sound vdevs)
    (stepped : psoc.step (.read p) = some after) :
    after.Sound vdevs ∧ (psoc.Limited → after.Limited) := by
  simp only [Psoc.step] at stepped
  split at stepped
  next machine count there =>
    split at stepped
    next other now =>
      obtain rfl := Option.some.inj stepped
      have counting := sound.count p _ there count rfl
      have before : machine.Sound (vdevs p) .scan := sound.machine p _ there
      refine ⟨sound.setPdev before fun next same => ?_,
        fun limited => limited.setPdev_same there rfl⟩
      obtain rfl := Option.some.inj same
      refine ⟨counting.counts, fun read => ?_, counting.promised⟩
      rcases Nat.lt_succ_iff_lt_or_eq.1 read with earlier | here
      · exact (counting.own earlier).trans (Nat.le_add_right _ _)
      · rw [← here, there] at now
        obtain rfl := Option.some.inj now
        exact Nat.le_add_left _ _
    · cases stepped
  · cases stepped

theorem Sound.stepOther (sound : psoc.Sound vdevs)
    (few : ∀ p, (vdevs p).card ≤ pdevMaxVdevs) {move : Move}
    (stepped : psoc.step (.other p move) = some after) :
    after.Sound vdevs ∧ (psoc.Meets (.other p move) → psoc.Limited → after.Limited) := by
  simp only [Psoc.step] at stepped
  split at stepped
  next pdev there =>
    split at stepped
    · cases stepped
    next may =>
      simp only [Bool.or_eq_true, Bool.and_eq_true, not_or, not_and, Bool.not_eq_true] at may
      obtain ⟨silent, free⟩ := may
      obtain ⟨last, ran, rfl⟩ := Option.map_eq_some_iff.1 stepped
      obtain ⟨machine, heads, effect⟩ :=
        (sound.machine p pdev there).otherScan (few p) silent ran
      have active : (psoc.setPdev p ⟨last, pdev.count⟩).activeScans +
          pdev.machine.queue.active.length = psoc.activeScans + last.queue.active.length :=
        activeScans_setPdev there
      have moving : (psoc.setPdev p ⟨last, pdev.count⟩).moving + pdev.machine.moving =
          psoc.moving + last.moving := moving_setPdev there
      refine ⟨sound.setPdev machine fun count same => ?_, fun meets limited => ⟨?_, ?_⟩⟩
      · have counting := sound.count p pdev there count same
        refine ⟨Machine.counts_of_head counting.counts heads, fun before => ?_,
          counting.promised⟩
        have own := counting.own before
        rcases effect with ⟨kept, -⟩ | ⟨locks, -⟩
        · exact kept.trans_le own
        · have locked : pdev.count.isSome = true := Option.isSome_iff_exists.2 ⟨count, same⟩
          rw [free locked] at locks
          cases locks
      · have most := limited.most
        change (psoc.setPdev p _).activeScans ≤ psoc.maxActiveScans
        rcases effect with ⟨kept, -⟩ | ⟨-, less, -⟩ <;> omega
      · intro now
        change psoc.maxActiveScans ≤ _
        have before : psoc.SomePending := by
          rcases now.setPdev there with before | ⟨empty, some⟩
          · exact before
          · rcases effect with ⟨-, -, same | nonempty⟩ | ⟨-, -, same, -⟩
            · exact absurd (same.trans empty) some
            · exact absurd empty nonempty
            · exact absurd (same.trans empty) some
        have pending := limited.pending before
        rcases effect with ⟨kept, still, -⟩ | ⟨-, less, -, more | ⟨still, i, choice, frame,
          call, n, rfl, head, cancels, member, chosen⟩⟩
        · omega
        · omega
        · have enough := meets pdev there frame head call cancels n member chosen before
          omega
  · cases stepped

theorem Sound.stepConclude (sound : psoc.Sound vdevs)
    (few : ∀ p, (vdevs p).card ≤ pdevMaxVdevs)
    (stepped : psoc.step (.conclude p) = some after) :
    after.Sound vdevs ∧ (psoc.Meets (.conclude p) → psoc.Limited → after.Limited) := by
  simp only [Psoc.step] at stepped
  split at stepped
  next machine count there =>
    split at stepped
    next all =>
      obtain ⟨last, ran, rfl⟩ := Option.map_eq_some_iff.1 stepped
      have counting := sound.count p _ there count rfl
      have inside : p < psoc.pdevs.length := (List.getElem?_eq_some_iff.1 there).1
      have own : machine.queue.active.length ≤ count.total := counting.own (all ▸ inside)
      have before : machine.Sound (vdevs p) .scan := sound.machine p _ there
      have promised : machine.Promised (vdevs p)
          (count.move.counted count.total psoc.maxActiveScans) := by
        cases move : count.move with
        | request lookups cmd? =>
          intro cmd same
          have promised := counting.promised lookups cmd? move cmd same
          exact ⟨promised.1.trans before.ofKind.symm, promised.2⟩
        | run i choice => exact fun _ _ _ _ => ⟨own, sound.few⟩
        | remove | cancel | fire | disable => trivial
      obtain ⟨next, effect⟩ := before.countScan (few p) counting.counts promised ran
      have active : (psoc.setPdev p ⟨last, none⟩).activeScans + machine.queue.active.length =
          psoc.activeScans + last.queue.active.length := activeScans_setPdev there
      have moving : (psoc.setPdev p ⟨last, none⟩).moving + machine.moving =
          psoc.moving + last.moving := moving_setPdev there
      refine ⟨sound.setPdev next fun _ same => by simp at same,
        fun meets limited => ⟨?_, fun now => ?_⟩⟩
      · have most := limited.most
        obtain ⟨current, -⟩ := meets _ there count rfl
        change (psoc.setPdev p _).activeScans ≤ psoc.maxActiveScans
        rcases effect with ⟨kept, -⟩ | ⟨kept, -⟩ | ⟨more, room, -⟩
        · omega
        · omega
        · have room := current.1 room
          omega
      · obtain ⟨current, missed⟩ := meets _ there count rfl
        change psoc.maxActiveScans ≤ _
        have pending : psoc.SomePending → psoc.maxActiveScans ≤ psoc.activeScans + psoc.moving :=
          limited.pending
        rcases effect with ⟨kept, still, why⟩ | ⟨kept, less, same, why⟩ |
          ⟨more, room, ⟨still, same⟩ | ⟨less, nonempty⟩⟩
        · rcases now.setPdev there with before | ⟨empty, some⟩
          · have enough := pending before
            omega
          · rcases why with same | nonempty | full
            · exact absurd (same.trans empty) some
            · exact absurd empty nonempty
            · have full : ¬psoc.activeScans < psoc.maxActiveScans :=
                fun room => absurd (current.2 room) (Nat.not_lt.2 full)
              omega
        · have before : psoc.SomePending := by
            rcases now.setPdev there with before | ⟨empty, some⟩
            · exact before
            · exact absurd (same.trans empty) some
          rcases why with full | ⟨empty, runs⟩
          · have full : ¬psoc.activeScans < psoc.maxActiveScans :=
              fun room => absurd (current.2 room) (Nat.not_lt.2 full)
            omega
          · have enough := missed runs empty before
            omega
        · have before : psoc.SomePending := by
            rcases now.setPdev there with before | ⟨empty, some⟩
            · exact before
            · exact absurd (same.trans empty) some
          have enough := pending before
          omega
        · have before : psoc.SomePending := ⟨_, List.mem_of_getElem? there, nonempty⟩
          have enough := pending before
          omega
    · cases stepped
  · cases stepped

theorem Sound.step (sound : psoc.Sound vdevs) (few : ∀ p, (vdevs p).card ≤ pdevMaxVdevs)
    {move : ScanMove} (promised : Promised vdevs move) (stepped : psoc.step move = some after) :
    after.Sound vdevs ∧ (psoc.Meets move → psoc.Limited → after.Limited) := by
  cases move with
  | count p move =>
    obtain ⟨next, limited⟩ := sound.stepCount promised stepped
    exact ⟨next, fun _ => limited⟩
  | read p =>
    obtain ⟨next, limited⟩ := sound.stepRead stepped
    exact ⟨next, fun _ => limited⟩
  | conclude p => exact sound.stepConclude few stepped
  | other p move => exact sound.stepOther few stepped

theorem Fresh.sound (fresh : psoc.Fresh) (vdevs : Nat → Finset VdevId) :
    psoc.Sound vdevs ∧ psoc.Limited := by
  obtain ⟨pdevs, maxActiveScans, few, rfl⟩ := fresh
  have each : ∀ pdev ∈ (initial pdevs maxActiveScans).pdevs,
      pdev = { machine := .initial .scan, count := none } :=
    fun pdev member => List.eq_of_mem_replicate member
  have pdev : ∀ (p : Nat) (pdev : ScanPdev),
      (initial pdevs maxActiveScans).pdevs[p]? = some pdev →
        pdev = { machine := .initial .scan, count := none } :=
    fun p pdev there => each pdev (List.mem_of_getElem? there)
  refine ⟨⟨few, fun p found there => ?_, fun p found there count same => ?_⟩, ?_, ?_⟩
  · rw [pdev p found there]
    exact .initial (vdevs p) .scan
  · rw [pdev p found there] at same
    cases same
  · have none : (initial pdevs maxActiveScans).activeScans = 0 := by
      refine List.sum_eq_zero fun length member => ?_
      obtain ⟨found, there, rfl⟩ := List.mem_map.1 member
      rw [each found there]
      rfl
    rw [none]
    exact Nat.zero_le _
  · rintro ⟨found, there, pending⟩
    rw [each found there] at pending
    exact absurd rfl pending

theorem limited_of_reachable (few : ∀ p, (vdevs p).card ≤ pdevMaxVdevs)
    (reached : Lib.Reachable Fresh (Lib.StepOf step (MeetingMove vdevs)) psoc) :
    psoc.Sound vdevs ∧ psoc.Limited := by
  induction reached with
  | start fresh => exact fresh.sound vdevs
  | next _ stepped ih =>
    obtain ⟨sound, limited⟩ := ih
    obtain ⟨move, ⟨promised, meets⟩, stepped⟩ := stepped
    obtain ⟨next, keeps⟩ := sound.step few promised stepped
    exact ⟨next, keeps meets limited⟩

theorem Idle.moving (idle : psoc.Idle) : psoc.moving = 0 := by
  refine List.sum_eq_zero fun count member => ?_
  obtain ⟨pdev, there, rfl⟩ := List.mem_map.1 member
  simp [Machine.moving, (idle pdev there).1]

/-- In every run whose counts are current when they are used and that misses no pending
scan, no more scans are active than the maximum, and when nothing is in progress a pending
scan means that as many are. -/
theorem scans_of_reachable (few : ∀ p, (vdevs p).card ≤ pdevMaxVdevs)
    (reached : Lib.Reachable Fresh (Lib.StepOf step (MeetingMove vdevs)) psoc) :
    psoc.activeScans ≤ psoc.maxActiveScans ∧
      (psoc.Idle → ∀ pdev ∈ psoc.pdevs, pdev.machine.queue.pending ≠ [] →
        psoc.activeScans = psoc.maxActiveScans) := by
  obtain ⟨-, limited⟩ := limited_of_reachable few reached
  refine ⟨limited.most, fun idle pdev member pending => ?_⟩
  have enough := limited.pending ⟨pdev, member, pending⟩
  rw [idle.moving] at enough
  exact le_antisymm limited.most enough

instance (psoc : Psoc) : Decidable psoc.SomePending :=
  inferInstanceAs (Decidable (∃ pdev ∈ psoc.pdevs, _))

instance (psoc : Psoc) : Decidable psoc.Idle :=
  inferInstanceAs (Decidable (∀ pdev ∈ psoc.pdevs, _))

instance (psoc : Psoc) (move : ScanMove) : Decidable (psoc.Meets move) := by
  unfold Meets
  split <;> infer_instance

instance (vdevs : Nat → Finset VdevId) (psoc : Psoc) (move : ScanMove) :
    Decidable (MeetingMove vdevs psoc move) :=
  inferInstanceAs (Decidable (_ ∧ _))

def sampleScanVdevs : Nat → Finset VdevId
  | 0 => {0}
  | _ => {1}

def sampleScan (vdev : VdevId) (cmdId : UInt32) : Command where
  cmdType := .scan
  cmdId := cmdId
  cmdCb := true
  isHighPriority := false
  isBlocking := false
  queueDisable := false
  vdev := vdev

def enter (p : Nat) (cmd : Command) : List ScanMove :=
  [.count p (.request {} (some cmd)), .read p, .read p, .conclude p]

def activateAll (p i : Nat) : List ScanMove :=
  List.replicate 3 (.other p (.run i {}))

def scansOn0 (count : Nat) : List ScanMove :=
  (List.range count).flatMap fun i => enter 0 (sampleScan 0 i.toUInt32) ++ activateAll 0 i

def racingPsoc : Psoc :=
  (Lib.play step (fun _ move => Promised sampleScanVdevs move) (initial 2 maxActiveScanCmds)
    (scansOn0 7 ++ [.count 0 (.request {} (some (sampleScan 0 7))),
      .count 1 (.request {} (some (sampleScan 1 8))), .read 0, .read 0, .read 1, .read 1,
      .conclude 0, .conclude 1])).get (by decide +kernel)

/-- As many scans are active as may be, one is pending on the other pdev, and an active
one is removed. -/
def strandedPsoc : Psoc :=
  (Lib.play step (fun _ move => Promised sampleScanVdevs move) (initial 2 maxActiveScanCmds)
    (scansOn0 8 ++ enter 1 (sampleScan 1 8) ++
      [.other 0 (.remove (sampleScan 0 0).key), .other 0 (.run 8 {}), .count 0 (.run 8 {}),
        .read 0, .read 0, .conclude 0, .other 0 (.run 8 {})])).get (by decide +kernel)

theorem scans_not_limited :
    (racingPsoc.Reachable sampleScanVdevs ∧
        racingPsoc.maxActiveScans < racingPsoc.activeScans) ∧
      strandedPsoc.Reachable sampleScanVdevs ∧ strandedPsoc.Idle ∧
        ∃ pdev ∈ strandedPsoc.pdevs, pdev.machine.queue.pending ≠ [] ∧
          strandedPsoc.activeScans ≠ strandedPsoc.maxActiveScans := by
  have start : (initial 2 maxActiveScanCmds).Reachable sampleScanVdevs :=
    .start ⟨2, maxActiveScanCmds, le_refl _, rfl⟩
  exact ⟨⟨Lib.play_reachable start _, by decide +kernel⟩, Lib.play_reachable start _,
    by decide +kernel, by decide +kernel⟩

def meetingPsoc : Psoc :=
  (Lib.play step (MeetingMove sampleScanVdevs) (initial 2 maxActiveScanCmds)
    (enter 0 (sampleScan 0 0) ++ activateAll 0 0 ++ enter 1 (sampleScan 1 1) ++
      [.other 0 (.remove (sampleScan 0 0).key), .other 0 (.run 1 {}), .count 0 (.run 1 {}),
        .read 0, .read 0, .conclude 0])).get (by decide +kernel)

theorem meetingPsoc_scans :
    meetingPsoc.activeScans ≤ meetingPsoc.maxActiveScans ∧
      (meetingPsoc.Idle → ∀ pdev ∈ meetingPsoc.pdevs, pdev.machine.queue.pending ≠ [] →
        meetingPsoc.activeScans = meetingPsoc.maxActiveScans) := by
  have few : ∀ p, (sampleScanVdevs p).card ≤ pdevMaxVdevs := by
    intro p
    unfold sampleScanVdevs
    split <;> decide
  have start : Lib.Reachable Fresh (Lib.StepOf step (MeetingMove sampleScanVdevs))
      (initial 2 maxActiveScanCmds) := .start ⟨2, maxActiveScanCmds, le_refl _, rfl⟩
  exact scans_of_reachable few (Lib.play_reachable start _)

end Psoc

end VendorModules.Ser
