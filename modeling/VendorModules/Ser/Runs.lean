import VendorModules.Lib.Workers
import VendorModules.Ser.Ran

namespace VendorModules.Ser

variable {queue after : Queue} {vdevs : Finset VdevId} {activating : List NodeId}
  {windows : List VdevId} {choice : Choice} {frame : Frame} {new : List Frame}
  {callbacks : List (Nat × CbReason)}

theorem Queue.Walked.fits {call : CancelCall} {isActive : Bool}
    (walked : queue.Walked call isActive new after) :
    after.kind = queue.kind ∧ ∀ more ∈ new, more.Fits queue.kind := by
  cases walked with
  | ended remarked last =>
    refine ⟨remarked.kind, ?_⟩
    rcases last with ⟨-, rfl⟩ | ⟨⟨kind, -⟩, rfl⟩
    · simp
    · simp [Frame.Fits, kind]
  | removed remarked _ _ _ _ unlists =>
    refine ⟨unlists.kind.trans remarked.kind, ?_⟩
    simp [Frame.Fits]

@[simp] theorem Queue.settleCancel_kind (cmd : Command) (isActive : Bool) :
    (queue.settleCancel cmd isActive).kind = queue.kind := by
  unfold Queue.settleCancel
  split
  · rfl
  · split
    · rfl
    · split <;> rfl

@[simp] theorem Queue.markActive_kind (cmd : Command) :
    (queue.markActive cmd).kind = queue.kind := by
  unfold Queue.markActive
  split <;> rfl

@[simp] theorem Queue.markRemoved_kind (n : NodeId) (vdev : VdevId) :
    (queue.markRemoved n vdev).kind = queue.kind := by
  unfold Queue.markRemoved
  split <;> rfl

theorem Queue.Promotes.kind {n : NodeId} {accepted : Accepted}
    (promotes : queue.Promotes n accepted after) : after.kind = queue.kind := by
  obtain ⟨-, -, mid, last, unlists, lists, rfl⟩ := promotes
  have same : (last.markActive accepted.cmd).kind = queue.kind := by
    rw [markActive_kind, lists.kind, unlists.kind]
  dsimp only
  split <;> exact same

theorem Queue.Enqueued.kind {lookups : Lookups} {accepted : Accepted} {status : Status}
    {taken : Option NodeId} (enqueued : queue.Enqueued lookups accepted status taken after) :
    after.kind = queue.kind := by
  have counted : (queue.counted accepted.cmd).kind = queue.kind := by
    obtain ⟨waiting, same⟩ := counted_eq queue accepted.cmd
    rw [same]
  cases enqueued with
  | refused => rfl
  | turnedAway => exact counted
  | full =>
    split
    · exact (disableFor_kind _ _).trans counted
    · exact counted
  | pending _ _ _ _ _ lists => exact lists.kind.trans counted
  | active _ _ _ _ _ lists =>
    exact (Queue.markActive_kind _).trans (lists.kind.trans counted)

theorem Ran.fits (ran : Ran queue choice frame new after callbacks) :
    after.kind = queue.kind ∧ ∀ more ∈ new, more.Fits queue.kind := by
  cases ran with
  | activate | notStarted | activated | release | cancelNotify | stopped | timeoutNotify =>
    exact ⟨rfl, by simp [Frame.Fits]⟩
  | settle goesOn =>
    refine ⟨rfl, ?_⟩
    rcases goesOn with rfl | rfl | ⟨call, rfl⟩ <;> simp [Frame.Fits]
  | notFound remarked => exact ⟨remarked.kind, by simp⟩
  | dequeue _ _ _ unlists =>
    refine ⟨?_, by simp [Frame.Fits]⟩
    exact (Queue.markRemoved_kind _ _).trans unlists.kind
  | stay _ remarked => exact ⟨remarked.kind, by simp⟩
  | move _ remarked promotes _ _ _ _ goesOn =>
    refine ⟨promotes.kind.trans remarked.kind, ?_⟩
    rcases goesOn with ⟨-, rfl⟩ | ⟨kind, lookup, -, rfl⟩
    · simp [Frame.Fits]
    · simp [Frame.Fits, kind]
  | cancel walked => exact walked.fits
  | cancelResume walked =>
    obtain ⟨same, fits⟩ := walked.fits
    rw [Queue.settleCancel_kind] at same fits
    exact ⟨same, fits⟩
  | timeout goesOn =>
    refine ⟨rfl, ?_⟩
    rcases goesOn with rfl | ⟨-, rfl⟩ <;> simp [Frame.Fits]

theorem Queue.Sound.walked (sound : queue.Sound vdevs activating windows)
    {call : CancelCall} {isActive : Bool} (walked : queue.Walked call isActive new after) :
    after.Sound vdevs (new.filterMap Frame.activating? ++ activating)
      (new.filterMap Frame.window? ++ windows) := by
  cases walked with
  | ended remarked last =>
    have kept := sound.remarked remarked
    rcases last with ⟨-, rfl⟩ | ⟨-, rfl⟩
    · exact kept
    · exact kept
  | @removed n accepted marked mid _ _ remarked member _ content unmarked unlists =>
    have kept := sound.remarked remarked
    have listed : n ∈ marked.pdevList isActive := by
      rw [remarked.pdevList]
      exact member
    have of : (marked.node n).vdev? = some accepted.cmd.vdev := by
      rw [remarked.vdev?]
      simp [Node.vdev?, content]
    cases isActive with
    | true =>
      refine kept.cancelled unlists listed ?_ of
      rw [remarked.activation]
      exact unmarked rfl
    | false =>
      refine (kept.unlists unlists listed (by simp)).freeNode ?_
      exact kept.linked.loose unlists listed

theorem Ran.sound (ran : Ran queue choice frame new after callbacks)
    (sound : queue.Sound vdevs (frame.activating?.toList ++ activating)
      (frame.window?.toList ++ windows)) :
    after.Sound vdevs (new.filterMap Frame.activating? ++ activating)
      (new.filterMap Frame.window? ++ windows) := by
  cases ran with
  | activate => exact Queue.Sound.started sound
  | notStarted => exact sound
  | activated => exact Queue.Sound.activated sound _
  | settle goesOn =>
    rcases goesOn with rfl | rfl | ⟨call, rfl⟩ <;> exact sound
  | notFound remarked => exact Queue.Sound.remarked sound remarked
  | @dequeue _ n accepted mid active content unmarked unlists =>
    refine Queue.Sound.dequeued sound unlists active unmarked ?_
    simp [Node.vdev?, content]
  | stay moves remarked =>
    have kept := sound.remarked remarked
    cases frame <;> first | exact kept | exact moves.elim
  | @move _ _ n accepted marked _ moves remarked promotes _ clear _ _ goesOn =>
    have kept := sound.remarked remarked
    have moved : after.Sound vdevs (n :: activating) windows := by
      have before : marked.Sound vdevs activating windows := by
        cases frame <;> first | exact kept | exact moves.elim
      refine before.promotes promotes fun kind => ?_
      rw [remarked.bits]
      exact clear (remarked.kind ▸ kind)
    rcases goesOn with ⟨-, rfl⟩ | ⟨-, lookup, -, rfl⟩ <;> exact moved
  | release => exact sound
  | cancel walked => exact Queue.Sound.walked sound walked
  | @cancelNotify accepted cancelling => exact sound
  | @cancelResume cmd cancelling _ _ walked =>
    exact Queue.Sound.walked (Queue.Sound.resumed sound) walked
  | stopped moves =>
    cases frame <;> first | exact sound | exact moves.elim
  | timeout goesOn =>
    rcases goesOn with rfl | ⟨-, rfl⟩ <;> exact sound
  | timeoutNotify => exact sound

theorem filterMap_cons_toList {α β : Type*} (f : α → Option β) (head : α) (rest : List α) :
    (head :: rest).filterMap f = (f head).toList ++ rest.filterMap f := by
  rw [List.filterMap_cons]
  cases f head <;> rfl

namespace Machine

variable {machine : Machine} {kind : Kind}

theorem frames_set {i : Nat} {rest : List Frame}
    (thread : machine.threads[i]? = some (frame :: rest)) :
    ∃ others, machine.frames.Perm (frame :: others) ∧
      ∀ new, (machine.threads.set i (new ++ rest)).flatten.Perm (new ++ others) := by
  obtain ⟨before, later, split, set⟩ := Lib.split_of_getElem? thread
  refine ⟨rest ++ (before.flatten ++ later.flatten), ?_, fun new => ?_⟩
  · rw [frames, split, List.flatten_append, List.flatten_cons]
    exact List.perm_append_comm_assoc _ _ _
  · rw [set, List.flatten_append, List.flatten_cons]
    refine (List.perm_append_comm_assoc _ _ _).trans ?_
    rw [List.append_assoc]

structure Sound (vdevs : Finset VdevId) (kind : Kind) (machine : Machine) : Prop where
  ofKind : machine.queue.kind = kind
  queue : machine.queue.Sound vdevs (machine.frames.filterMap Frame.activating?)
    (machine.frames.filterMap Frame.window?)
  fits : ∀ frame ∈ machine.frames, frame.Fits kind

theorem Sound.initial (vdevs : Finset VdevId) (kind : Kind) :
    (initial kind).Sound vdevs kind := by
  refine ⟨rfl, ⟨⟨?_, ?_, ?_, ?_, ?_, ?_, ?_, ?_⟩, ?_, ?_, ?_, ?_⟩, ?_⟩
  · simp only [Machine.initial, Queue.initial, List.append_nil]
    exact List.nodup_range
  · exact fun _ _ => rfl
  · simp [Machine.initial, Queue.initial]
  · simp [Machine.initial, Queue.initial]
  · simp [Machine.initial, Queue.initial]
  · intro _ isActive vdev
    cases isActive <;> rfl
  · simp [Machine.initial, Queue.initial]
  · simp [Machine.initial, Queue.initial]
  · simp [Machine.initial, frames]
  · simp [Machine.initial, frames]
  · simp [Machine.initial, frames]
  · simp [Machine.initial, frames]
  · simp [Machine.initial, frames]

theorem Sound.ran (sound : machine.Sound vdevs kind) (few : vdevs.card ≤ pdevMaxVdevs)
    {i : Nat} (promised : machine.Promised vdevs (.run i choice)) {last : Machine}
    (ran : machine.run i choice = some last) :
    ∃ frame new callbacks others,
      Ran machine.queue choice frame new last.queue callbacks ∧
        machine.head? i = some frame ∧
          machine.frames.Perm (frame :: others) ∧ last.frames.Perm (new ++ others) ∧
            last.log = callbacks ++ machine.log ∧ last.tickets = machine.tickets := by
  unfold run at ran
  split at ran
  next frame rest thread =>
    cases stepped : frame.run machine.queue choice with
    | none => simp [stepped] at ran
    | some outcome =>
      obtain ⟨new, after, callbacks⟩ := outcome
      rw [stepped] at ran
      simp only [Option.map_some, Option.some.injEq] at ran
      subst ran
      obtain ⟨others, before, set⟩ := frames_set thread
      have queue := sound.queue.perm (before.filterMap _) (before.filterMap _)
      rw [filterMap_cons_toList, filterMap_cons_toList] at queue
      have fits := sound.fits frame (before.mem_iff.2 List.mem_cons_self)
      rw [← sound.ofKind] at fits
      have head : machine.head? i = some frame := by
        unfold head?
        rw [thread]
        rfl
      exact ⟨frame, new, callbacks, others, queue.ran few (promised frame head) fits stepped,
        head, before, set new, rfl, rfl⟩
  · cases ran

theorem Sound.spawn (sound : machine.Sound vdevs kind) {thread : List Frame}
    (fresh : ∀ frame ∈ thread,
      frame.activating? = none ∧ frame.window? = none ∧ frame.Fits kind) :
    (machine.spawn thread).Sound vdevs kind := by
  have frames : (machine.spawn thread).frames = machine.frames ++ thread := by
    simp [Machine.frames, Machine.spawn]
  refine ⟨sound.ofKind, ?_, fun frame member => ?_⟩
  · have queue := sound.queue
    rw [frames, List.filterMap_append, List.filterMap_append,
      List.filterMap_eq_nil_iff.2 fun frame member => (fresh frame member).1,
      List.filterMap_eq_nil_iff.2 fun frame member => (fresh frame member).2.1,
      List.append_nil, List.append_nil]
    exact queue
  · rw [frames] at member
    rcases List.mem_append.1 member with member | member
    · exact sound.fits frame member
    · exact (fresh frame member).2.2

theorem frames_request (machine : Machine) (lookups : Lookups) (cmd? : Option Command) :
    (machine.request lookups cmd?).2.frames = machine.frames ++
      ((machine.queue.enqueueCmd lookups machine.tickets cmd?).2.1.map
        Frame.activate).toList := by
  simp [Machine.frames, Machine.request]

theorem Sound.request (sound : machine.Sound vdevs kind) {lookups : Lookups}
    {cmd? : Option Command} (members : ∀ cmd, cmd? = some cmd → cmd.vdev ∈ vdevs) :
    (machine.request lookups cmd?).2.Sound vdevs kind := by
  have frames := frames_request machine lookups cmd?
  cases ran : machine.queue.enqueueCmd lookups machine.tickets cmd? with
  | mk status result =>
    obtain ⟨taken, after⟩ := result
    rw [ran] at frames
    have queue : (machine.request lookups cmd?).2.queue = after := by
      simp only [Machine.request, ran]
    have next : after.kind = kind ∧ after.Sound vdevs
        (taken.toList ++ machine.frames.filterMap Frame.activating?)
        (machine.frames.filterMap Frame.window?) := by
      rcases sound.queue.linked.enqueueCmd ran with ⟨-, rfl, rfl, -⟩ |
        ⟨cmd, same, -, enqueued⟩
      · exact ⟨sound.ofKind, sound.queue⟩
      · exact ⟨enqueued.kind.trans sound.ofKind,
          sound.queue.enqueued (members cmd same) enqueued⟩
    refine ⟨by rw [queue]; exact next.1, ?_, fun frame member => ?_⟩
    · rw [queue, frames]
      cases taken with
      | none => simpa using next.2
      | some n =>
        rw [List.filterMap_append, List.filterMap_append]
        refine next.2.perm List.perm_append_comm ?_
        exact .of_eq (List.append_nil _).symm
    · rw [frames] at member
      rcases List.mem_append.1 member with member | member
      · exact sound.fits frame member
      · cases taken with
        | none => simp at member
        | some n =>
          obtain rfl : frame = .activate n := by simpa using member
          trivial

theorem Sound.step (sound : machine.Sound vdevs kind) (few : vdevs.card ≤ pdevMaxVdevs)
    {last : Machine} (stepped : machine.Step vdevs last) : last.Sound vdevs kind := by
  obtain ⟨move, promised, stepped⟩ := stepped
  cases move with
  | request lookups cmd? =>
    obtain rfl := Option.some.inj stepped
    exact sound.request fun cmd same => (promised cmd same).2
  | remove key =>
    obtain rfl := Option.some.inj stepped
    exact sound.spawn (by simp [Frame.activating?, Frame.window?, Frame.Fits])
  | cancel calls =>
    obtain rfl := Option.some.inj stepped
    refine sound.spawn fun frame member => ?_
    obtain ⟨⟨call, isActive⟩, -, rfl⟩ := List.mem_map.1 member
    exact ⟨rfl, rfl, trivial⟩
  | fire n =>
    simp only [Machine.step] at stepped
    split at stepped
    · split at stepped
      · obtain rfl := Option.some.inj stepped
        exact sound.spawn (by simp [Frame.activating?, Frame.window?, Frame.Fits])
      · cases stepped
    · cases stepped
  | disable vdev =>
    obtain rfl := Option.some.inj stepped
    exact ⟨sound.ofKind, sound.queue.setFlags, sound.fits⟩
  | run i choice =>
    obtain ⟨frame, new, callbacks, others, ran, -, before, set, -, -⟩ :=
      sound.ran few promised stepped
    have queue := sound.queue.perm (before.filterMap _) (before.filterMap _)
    rw [filterMap_cons_toList, filterMap_cons_toList] at queue
    obtain ⟨same, fits⟩ := ran.fits
    refine ⟨same.trans sound.ofKind, ?_, fun more member => ?_⟩
    · have next := ran.sound queue
      rw [← List.filterMap_append, ← List.filterMap_append] at next
      exact next.perm (set.symm.filterMap _) (set.symm.filterMap _)
    · rcases List.mem_append.1 (set.mem_iff.1 member) with member | member
      · exact sound.ofKind ▸ fits more member
      · exact sound.fits more (before.mem_iff.2 (List.mem_cons_of_mem _ member))

theorem sound_of_reachable (few : vdevs.card ≤ pdevMaxVdevs)
    (reached : machine.Reachable vdevs kind) : machine.Sound vdevs kind := by
  refine reached.invariant (fun _ start => ?_) fun _ _ sound stepped => sound.step few stepped
  rw [start]
  exact .initial vdevs kind

end Machine

def Frame.starts : Frame → Bool
  | .dequeue _ => true
  | .cancel _ _ => true
  | .timeout _ => true
  | _ => false

/-- What an invariant of the queue and the frames has to be kept by, where requests and
threads' steps are restricted. -/
structure Kept (vdevs : Finset VdevId) (kind : Kind)
    (requests : Queue → Lookups → Command → Prop) (steps : Queue → Frame → Prop)
    (inv : Queue → List Frame → Prop) : Prop where
  initial : inv (.initial kind) []
  perm : ∀ {queue frames frames'}, inv queue frames → frames.Perm frames' → inv queue frames'
  spawn : ∀ {queue frames thread}, inv queue frames →
    (∀ frame ∈ thread, frame.starts = true) → inv queue (frames ++ thread)
  disable : ∀ {queue frames vdev}, inv queue frames →
    inv { queue with queueDisable := Function.update queue.queueDisable vdev true } frames
  enqueued : ∀ {queue frames lookups accepted status taken after},
    queue.kind = kind →
    queue.Sound vdevs (frames.filterMap Frame.activating?) (frames.filterMap Frame.window?) →
    inv queue frames → requests queue lookups accepted.cmd →
    queue.Enqueued lookups accepted status taken after →
    inv after ((taken.map Frame.activate).toList ++ frames)
  ran : ∀ {queue choice frame new others after callbacks},
    queue.kind = kind →
    queue.Sound vdevs (frame.activating?.toList ++ others.filterMap Frame.activating?)
      (frame.window?.toList ++ others.filterMap Frame.window?) →
    inv queue (frame :: others) → steps queue frame →
    Ran queue choice frame new after callbacks → inv after (new ++ others)

namespace Kept

variable {kind : Kind} {requests : Queue → Lookups → Command → Prop}
  {steps steps' : Queue → Frame → Prop} {inv more : Queue → List Frame → Prop}

theorem narrow (kept : Kept vdevs kind requests steps inv)
    (fewer : ∀ queue frame, steps' queue frame → steps queue frame) :
    Kept vdevs kind requests steps' inv where
  initial := kept.initial
  perm := kept.perm
  spawn := kept.spawn
  disable := kept.disable
  enqueued := kept.enqueued
  ran := fun ofKind sound holds allowed ran =>
    kept.ran ofKind sound holds (fewer _ _ allowed) ran

theorem both (kept : Kept vdevs kind requests steps inv)
    (also : Kept vdevs kind requests steps more) :
    Kept vdevs kind requests steps fun queue frames => inv queue frames ∧ more queue frames where
  initial := ⟨kept.initial, also.initial⟩
  perm := fun holds perm => ⟨kept.perm holds.1 perm, also.perm holds.2 perm⟩
  spawn := fun holds starts => ⟨kept.spawn holds.1 starts, also.spawn holds.2 starts⟩
  disable := fun holds => ⟨kept.disable holds.1, also.disable holds.2⟩
  enqueued := fun ofKind sound holds allowed enqueued =>
    ⟨kept.enqueued ofKind sound holds.1 allowed enqueued,
      also.enqueued ofKind sound holds.2 allowed enqueued⟩
  ran := fun ofKind sound holds allowed ran =>
    ⟨kept.ran ofKind sound holds.1 allowed ran, also.ran ofKind sound holds.2 allowed ran⟩

end Kept

namespace Machine

variable {machine : Machine} {kind : Kind} {requests : Queue → Lookups → Command → Prop}
  {steps : Queue → Frame → Prop}

def Allowed (vdevs : Finset VdevId) (requests : Queue → Lookups → Command → Prop)
    (steps : Queue → Frame → Prop) (machine : Machine) (move : Move) : Prop :=
  machine.Promised vdevs move ∧
    match move with
    | .request lookups cmd? =>
      ∀ cmd ∈ cmd?, lookups.Receives cmd → requests machine.queue lookups cmd
    | .run i _ => ∀ frame ∈ machine.head? i, steps machine.queue frame
    | _ => True

instance [∀ queue lookups cmd, Decidable (requests queue lookups cmd)]
    [∀ queue frame, Decidable (steps queue frame)] (machine : Machine) (move : Move) :
    Decidable (Allowed vdevs requests steps machine move) := by
  unfold Allowed Lookups.Receives
  exact match move with
    | .request _ _ | .remove _ | .cancel _ | .fire _ | .disable _ | .run _ _ => inferInstance

theorem kept_step {inv : Queue → List Frame → Prop} (kept : Kept vdevs kind requests steps inv)
    (few : vdevs.card ≤ pdevMaxVdevs) (sound : machine.Sound vdevs kind)
    (holds : inv machine.queue machine.frames) {last : Machine}
    (stepped : Lib.StepOf step (Allowed vdevs requests steps) machine last) :
    last.Sound vdevs kind ∧ inv last.queue last.frames := by
  obtain ⟨move, ⟨promised, allowed⟩, stepped⟩ := stepped
  refine ⟨sound.step few ⟨move, promised, stepped⟩, ?_⟩
  have spawned : ∀ thread : List Frame, (∀ frame ∈ thread, frame.starts = true) →
      machine.spawn thread = last → inv last.queue last.frames := by
    rintro thread starts rfl
    have frames : (machine.spawn thread).frames = machine.frames ++ thread := by
      simp [Machine.frames, Machine.spawn]
    rw [frames]
    exact kept.spawn holds starts
  cases move with
  | request lookups cmd? =>
    obtain rfl := Option.some.inj stepped
    have frames := frames_request machine lookups cmd?
    generalize ran : machine.queue.enqueueCmd lookups machine.tickets cmd? = result
      at frames
    obtain ⟨status, taken, after⟩ := result
    have queue : (machine.request lookups cmd?).2.queue = after := by
      simp only [Machine.request, ran]
    rw [queue]
    refine kept.perm ?_ ((List.perm_append_comm).trans (.of_eq frames.symm))
    rcases sound.queue.linked.enqueueCmd ran with ⟨-, rfl, rfl, -⟩ |
      ⟨cmd, rfl, receives, enqueued⟩
    · exact holds
    · exact kept.enqueued sound.ofKind sound.queue holds (allowed cmd rfl receives) enqueued
  | remove key => exact spawned _ (by simp [Frame.starts]) (Option.some.inj stepped)
  | cancel calls =>
    refine spawned _ (fun frame member => ?_) (Option.some.inj stepped)
    obtain ⟨⟨call, isActive⟩, -, rfl⟩ := List.mem_map.1 member
    rfl
  | fire n =>
    simp only [Machine.step] at stepped
    split at stepped
    · split at stepped
      · exact spawned _ (by simp [Frame.starts]) (Option.some.inj stepped)
      · cases stepped
    · cases stepped
  | disable vdev =>
    obtain rfl := Option.some.inj stepped
    exact kept.disable holds
  | run i choice =>
    obtain ⟨frame, new, callbacks, others, ran, head, before, now, -, -⟩ :=
      sound.ran few promised stepped
    have queue := sound.queue.perm (before.filterMap _) (before.filterMap _)
    rw [filterMap_cons_toList, filterMap_cons_toList] at queue
    have next := kept.ran sound.ofKind queue (kept.perm holds before) (allowed frame head) ran
    exact kept.perm next now.symm

theorem kept_of_reachable {inv : Queue → List Frame → Prop}
    (kept : Kept vdevs kind requests steps inv) (few : vdevs.card ≤ pdevMaxVdevs)
    (reached : Lib.Reachable (· = initial kind)
      (Lib.StepOf step (Allowed vdevs requests steps)) machine) :
    machine.Sound vdevs kind ∧ inv machine.queue machine.frames := by
  induction reached with
  | start same =>
    rw [same]
    exact ⟨.initial vdevs kind, kept.initial⟩
  | next _ stepped ih => exact kept_step kept few ih.1 ih.2 stepped

end Machine

end VendorModules.Ser
