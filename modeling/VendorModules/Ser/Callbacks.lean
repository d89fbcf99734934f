import VendorModules.Ser.Runs

namespace VendorModules.Ser

namespace Queue

variable {queue after : Queue} {vdevs : Finset VdevId} {n : NodeId} {isActive : Bool}
  {activating : List NodeId} {windows : List VdevId}

def ticket? (queue : Queue) (n : NodeId) : Option Nat :=
  (queue.node n).content.map fun accepted => accepted.ticket

def tickets (queue : Queue) : List Nat :=
  (queue.pending ++ queue.active).filterMap queue.ticket?

theorem Remarked.tickets (remarked : queue.Remarked after) : after.tickets = queue.tickets := by
  have same : after.ticket? = queue.ticket? := by
    funext m
    simp only [ticket?, remarked.content]
  unfold Queue.tickets
  rw [same, remarked.active, remarked.pending]

theorem tickets_setNode {node : Node} (same : node.content = (queue.node n).content) :
    (queue.setNode n node).tickets = queue.tickets := by
  have kept : (queue.setNode n node).ticket? = queue.ticket? := by
    funext m
    by_cases here : m = n
    · subst here
      simp [ticket?, same]
    · simp [ticket?, setNode_of_ne _ _ _ here]
  unfold tickets
  rw [kept]
  rfl

theorem tickets_setMarks (change : Marks → Marks) :
    (queue.setMarks n change).tickets = queue.tickets :=
  tickets_setNode rfl

theorem tickets_setNode_loose (loose : queue.Loose n) (node : Node) :
    (queue.setNode n node).tickets = queue.tickets := by
  refine List.filterMap_congr fun m member => ?_
  have other : m ≠ n := by
    rintro rfl
    exact loose (List.mem_append_right _ member)
  simp only [ticket?, setNode_of_ne _ _ _ other]

theorem tickets_freeNode (loose : queue.Loose n) :
    (queue.freeNode n).tickets = queue.tickets :=
  tickets_setNode_loose loose {}

theorem Unlists.tickets (unlists : queue.Unlists n isActive after)
    (listed : n ∈ queue.pdevList isActive) {accepted : Accepted}
    (content : (queue.node n).content = some accepted) :
    queue.tickets.Perm (accepted.ticket :: after.tickets) := by
  have same : after.ticket? = queue.ticket? := by
    funext m
    simp only [ticket?, unlists.node]
  have perm : (queue.pending ++ queue.active).Perm (n :: (after.pending ++ after.active)) := by
    rw [unlists.pending, unlists.active]
    cases isActive with
    | true => exact ((List.perm_cons_erase listed).append_left _).trans List.perm_middle
    | false => exact (List.perm_cons_erase listed).append_right _
  refine (perm.filterMap _).trans ?_
  unfold Queue.tickets
  rw [same, List.filterMap_cons, show queue.ticket? n = some accepted.ticket by
    simp [ticket?, content]]

theorem Lists.tickets {cmd : Command} (lists : queue.Lists n cmd isActive after)
    {accepted : Accepted} (content : (queue.node n).content = some accepted) :
    after.tickets.Perm (accepted.ticket :: queue.tickets) := by
  have same : after.ticket? = queue.ticket? := by
    funext m
    simp only [ticket?, lists.node]
  have perm : (after.pending ++ after.active).Perm (n :: (queue.pending ++ queue.active)) := by
    rw [lists.pending, lists.active]
    cases isActive with
    | true => exact ((place_perm _ _ _).append_left _).trans List.perm_middle
    | false => exact (place_perm _ _ _).append_right _
  unfold Queue.tickets
  rw [same]
  refine (perm.filterMap _).trans ?_
  rw [List.filterMap_cons, show queue.ticket? n = some accepted.ticket by
    simp [ticket?, content]]

@[simp] theorem tickets_markActive (cmd : Command) :
    (queue.markActive cmd).tickets = queue.tickets := by
  unfold markActive
  split <;> rfl

@[simp] theorem tickets_markRemoved (vdev : VdevId) :
    (queue.markRemoved n vdev).tickets = queue.tickets := by
  unfold markRemoved
  split <;> rfl

@[simp] theorem tickets_settleCancel (cmd : Command) :
    (queue.settleCancel cmd isActive).tickets = queue.tickets := by
  unfold settleCancel
  split
  · rfl
  · split
    · rfl
    · split <;> rfl

theorem Promotes.tickets {accepted : Accepted} (promotes : queue.Promotes n accepted after) :
    after.tickets.Perm queue.tickets := by
  obtain ⟨pending, content, mid, last, unlists, lists, rfl⟩ := promotes
  have moved : ((last.markActive accepted.cmd).setMarks n
      fun marks => { marks with markedForActivation := true }).tickets.Perm
        queue.tickets := by
    refine .trans (.of_eq ((tickets_setMarks _).trans (tickets_markActive _))) ?_
    have content' : (mid.node n).content = some accepted := by rw [unlists.node, content]
    exact (lists.tickets content').trans (unlists.tickets pending content).symm
  dsimp only
  split
  · exact moved
  · exact moved

theorem mem_tickets (listed : n ∈ queue.pending ++ queue.active) {accepted : Accepted}
    (content : (queue.node n).content = some accepted) : accepted.ticket ∈ queue.tickets :=
  List.mem_filterMap.2 ⟨n, listed, by simp [ticket?, content]⟩

theorem Linked.tickets_enqueued (linked : queue.Linked vdevs) {lookups : Lookups}
    {accepted : Accepted} {status : Status} {taken : Option NodeId}
    (enqueued : queue.Enqueued lookups accepted status taken after) :
    after.tickets.Perm ((if status = .active ∨ status = .pending then [accepted.ticket]
      else []) ++ queue.tickets) := by
  have counted : (queue.counted accepted.cmd).tickets = queue.tickets := by
    obtain ⟨waiting, same⟩ := counted_eq queue accepted.cmd
    rw [same]
    rfl
  have ready : ∀ {n pool}, queue.pool = n :: pool →
      ((queue.counted accepted.cmd).takeNode n pool accepted).Loose n ∧
        ((queue.counted accepted.cmd).takeNode n pool accepted).tickets = queue.tickets ∧
          (((queue.counted accepted.cmd).takeNode n pool accepted).node n).content =
            some accepted := by
    intro n pool first
    have first' : (queue.counted accepted.cmd).pool = n :: pool := by
      obtain ⟨waiting, same⟩ := counted_eq queue accepted.cmd
      rw [same]
      exact first
    obtain ⟨-, loose, node⟩ := (counted_linked linked accepted.cmd).takeNode first' accepted
    refine ⟨loose, (tickets_setNode_loose ?_ _).trans counted, by rw [node]⟩
    exact loose
  cases enqueued with
  | refused denied =>
    rw [if_neg (not_or.2 ⟨denied.1, denied.2⟩)]
    exact .refl _
  | turnedAway denied =>
    rw [if_neg (not_or.2 ⟨denied.1, denied.2⟩), counted]
    exact .refl _
  | @full n pool _ _ first =>
    obtain ⟨loose, same, -⟩ := ready first
    simp only [reduceCtorEq, or_self, if_false, List.nil_append]
    split
    · obtain ⟨disable, disabled⟩ := disableFor_eq
        ((queue.counted accepted.cmd).takeNode n pool accepted) accepted.cmd
      rw [disabled]
      exact .of_eq ((tickets_freeNode loose).trans same)
    · exact .of_eq ((tickets_freeNode loose).trans same)
  | pending _ _ first _ _ lists =>
    obtain ⟨loose, same, content⟩ := ready first
    have listed := lists.tickets content
    rw [same] at listed
    simpa using listed
  | active _ _ first _ _ lists =>
    obtain ⟨loose, same, content⟩ := ready first
    have listed := lists.tickets content
    rw [same] at listed
    refine .trans (.of_eq ((tickets_setMarks _).trans (tickets_markActive _))) ?_
    simpa using listed

end Queue

def released (log : List (Nat × CbReason)) : List Nat :=
  log.filterMap fun entry => if entry.2 = .releaseMemCmd then some entry.1 else none

section Steps

variable {queue after : Queue} {vdevs : Finset VdevId} {activating : List NodeId}
  {windows : List VdevId} {choice : Choice} {frame : Frame} {new : List Frame}
  {callbacks : List (Nat × CbReason)}

theorem Queue.Linked.tickets_walked (linked : queue.Linked vdevs) {call : CancelCall}
    {isActive : Bool} (walked : queue.Walked call isActive new after) :
    (after.tickets ++ new.filterMap Frame.holds?).Perm queue.tickets := by
  cases walked with
  | ended remarked last =>
    rw [remarked.tickets]
    rcases last with ⟨-, rfl⟩ | ⟨-, rfl⟩ <;> exact .of_eq (List.append_nil _)
  | @removed n accepted marked mid _ _ remarked member _ content _ unlists =>
    have listed : n ∈ marked.pdevList isActive := by
      rw [remarked.pdevList]
      exact member
    have content' : (marked.node n).content = some accepted := by
      rw [remarked.content]
      exact content
    have loose := (linked.remarked remarked).loose unlists listed
    rw [Queue.tickets_freeNode loose, ← remarked.tickets]
    exact (List.perm_append_singleton accepted.ticket mid.tickets).trans
      (unlists.tickets listed content').symm

theorem Ran.tickets (ran : Ran queue choice frame new after callbacks)
    (sound : queue.Sound vdevs (frame.activating?.toList ++ activating)
      (frame.window?.toList ++ windows)) :
    (after.tickets ++ (new.filterMap Frame.holds? ++ released callbacks)).Perm
      (queue.tickets ++ frame.holds?.toList) := by
  cases ran with
  | @activate n _ _ _ =>
    have same : (queue.setNode n { queue.node n with timer := true }).tickets =
        queue.tickets := Queue.tickets_setNode rfl
    rw [same]
    exact .refl _
  | notStarted => exact .refl _
  | activated =>
    rw [Queue.tickets_setMarks]
    exact .refl _
  | settle goesOn =>
    rcases goesOn with rfl | rfl | ⟨call, rfl⟩ <;> exact .refl _
  | notFound remarked =>
    rw [remarked.tickets]
    exact .refl _
  | @dequeue _ n accepted mid active content _ unlists =>
    have loose := sound.linked.loose_markRemoved unlists active accepted.cmd.vdev
    rw [Queue.tickets_freeNode loose, Queue.tickets_markRemoved]
    refine .trans ?_ (.of_eq (List.append_nil _).symm)
    exact (List.perm_append_singleton accepted.ticket mid.tickets).trans
      (unlists.tickets active content).symm
  | stay moves remarked =>
    rw [remarked.tickets]
    cases frame <;> first | exact .refl _ | exact moves.elim
  | move moves remarked promotes _ _ _ _ goesOn =>
    have same : after.tickets.Perm queue.tickets := by
      rw [← remarked.tickets]
      exact promotes.tickets
    have none : frame.holds? = none := by
      cases frame <;> first | rfl | exact moves.elim
    rw [none]
    rcases goesOn with ⟨-, rfl⟩ | ⟨-, lookup, -, rfl⟩ <;> exact same.append_right _
  | release => exact .refl _
  | cancel walked =>
    have kept := sound.linked.tickets_walked walked
    simpa [released, Frame.holds?] using kept
  | cancelNotify => exact .refl _
  | @cancelResume cmd cancelling _ _ walked =>
    have settled : (queue.settleCancel cmd cancelling.isActive).Sound vdevs activating
        windows := Queue.Sound.resumed sound
    have kept := settled.linked.tickets_walked walked
    rw [Queue.tickets_settleCancel] at kept
    simpa [released, Frame.holds?] using kept
  | stopped moves =>
    cases frame <;> first | exact .refl _ | exact moves.elim
  | timeout goesOn =>
    rcases goesOn with rfl | ⟨-, rfl⟩ <;> exact .refl _
  | timeoutNotify => exact .refl _

theorem Ran.called (ran : Ran queue choice frame new after callbacks)
    (sound : queue.Sound vdevs (frame.activating?.toList ++ activating)
      (frame.window?.toList ++ windows)) :
    callbacks = [] ∨ ∃ ticket reason, callbacks = [(ticket, reason)] ∧
      (ticket ∈ queue.tickets ++ frame.holds?.toList ∨
        ∃ accepted, frame = .timeoutNotify accepted ∧ ticket = accepted.ticket) := by
  cases ran with
  | @activate n _ accepted content =>
    refine .inr ⟨_, _, rfl, .inl (List.mem_append_left _ ?_)⟩
    have active := Queue.Sound.activating_active sound
    exact Queue.mem_tickets (List.mem_append_right _ active) content
  | release | cancelNotify =>
    exact .inr ⟨_, _, rfl, .inl (List.mem_append_right _ (List.mem_singleton_self _))⟩
  | timeoutNotify => exact .inr ⟨_, _, rfl, .inr ⟨_, rfl, rfl⟩⟩
  | notStarted | activated | settle | notFound | dequeue | stay | move | cancel
  | cancelResume | stopped | timeout => exact .inl rfl

end Steps

def Frame.timesOut? : Frame → Option Accepted
  | .timeoutNotify accepted => some accepted
  | _ => none

namespace Machine

variable {machine : Machine} {vdevs : Finset VdevId} {kind : Kind}

def held (machine : Machine) : List Nat := machine.frames.filterMap Frame.holds?

/-- Every accepted command is in one place, and none gets a callback after its memory was
released. -/
structure Accounted (machine : Machine) : Prop where
  places : (machine.queue.tickets ++ (machine.held ++ released machine.log)).Perm
    (List.range machine.tickets)
  last : machine.log.Pairwise fun newer older =>
    older.2 = .releaseMemCmd → newer.1 ≠ older.1

/-- The callback of a timeout is made while the command is on the lists, or while the
operation that took it off has not released it. -/
def Timely (machine : Machine) : Move → Prop
  | .run i _ => ∀ accepted ∈ (machine.head? i).bind Frame.timesOut?,
      accepted.ticket ∈ machine.queue.tickets ++ machine.held
  | _ => True

theorem released_append (first last : List (Nat × CbReason)) :
    released (first ++ last) = released first ++ released last :=
  List.filterMap_append

theorem mem_released {log : List (Nat × CbReason)} {entry : Nat × CbReason}
    (member : entry ∈ log) (reason : entry.2 = .releaseMemCmd) : entry.1 ∈ released log :=
  List.mem_filterMap.2 ⟨entry, member, by simp [reason]⟩

theorem Accounted.not_released (accounted : machine.Accounted) {ticket : Nat}
    (here : ticket ∈ machine.queue.tickets ++ machine.held) :
    ticket ∉ released machine.log := by
  have nodup := accounted.places.nodup_iff.2 List.nodup_range
  rw [← List.append_assoc, List.nodup_append] at nodup
  exact fun gone => nodup.2.2 ticket here ticket gone rfl

theorem Accounted.spawn (accounted : machine.Accounted) {thread : List Frame}
    (none : thread.filterMap Frame.holds? = []) : (machine.spawn thread).Accounted := by
  refine ⟨?_, accounted.last⟩
  have held : (machine.spawn thread).held = machine.held := by
    simp [Machine.held, frames, Machine.spawn, none]
  rw [held]
  exact accounted.places

theorem Accounted.run (accounted : machine.Accounted) (sound : machine.Sound vdevs kind)
    (few : vdevs.card ≤ pdevMaxVdevs) {i : Nat} {choice : Choice}
    (promised : machine.Promised vdevs (.run i choice))
    (timely : machine.Timely (.run i choice)) {last : Machine}
    (ran : machine.run i choice = some last) : last.Accounted := by
  obtain ⟨frame, new, callbacks, others, ran, head, before, now, log, tickets⟩ :=
    sound.ran few promised ran
  have queue := sound.queue.perm (before.filterMap _) (before.filterMap _)
  rw [filterMap_cons_toList, filterMap_cons_toList] at queue
  have held : machine.held.Perm (frame.holds?.toList ++ others.filterMap Frame.holds?) := by
    have perm := before.filterMap Frame.holds?
    rwa [filterMap_cons_toList] at perm
  have held' : last.held.Perm
      (new.filterMap Frame.holds? ++ others.filterMap Frame.holds?) := by
    have perm := now.filterMap Frame.holds?
    rwa [List.filterMap_append] at perm
  refine ⟨?_, ?_⟩
  · rw [log, tickets, released_append]
    refine .trans (List.perm_iff_count.2 fun ticket => ?_) accounted.places
    have moved := (ran.tickets queue).count_eq ticket
    have before := held.count_eq ticket
    have now := held'.count_eq ticket
    simp only [List.count_append] at moved before now ⊢
    omega
  · rw [log, List.pairwise_append]
    refine ⟨?_, accounted.last, fun newer made older there freed same => ?_⟩
    · rcases ran.called queue with rfl | ⟨ticket, reason, rfl, -⟩ <;> simp
    · rcases ran.called queue with rfl | ⟨ticket, reason, rfl, known⟩
      · cases made
      · obtain rfl := List.mem_singleton.1 made
        refine accounted.not_released ?_ (same ▸ mem_released there freed)
        rcases known with known | ⟨accepted, rfl, rfl⟩
        · refine List.mem_append.2 ((List.mem_append.1 known).imp id fun known => ?_)
          exact held.mem_iff.2 (List.mem_append_left _ known)
        · exact timely accepted (by rw [head]; rfl)

theorem Accounted.request (accounted : machine.Accounted) (sound : machine.Sound vdevs kind)
    (lookups : Lookups) (cmd? : Option Command) :
    (machine.request lookups cmd?).2.Accounted := by
  have frames := frames_request machine lookups cmd?
  have held : (machine.request lookups cmd?).2.held = machine.held := by
    unfold Machine.held
    rw [frames, List.filterMap_append]
    cases (machine.queue.enqueueCmd lookups machine.tickets cmd?).2.1 <;> simp [Frame.holds?]
  refine ⟨?_, accounted.last⟩
  rw [held]
  cases ran : machine.queue.enqueueCmd lookups machine.tickets cmd? with
  | mk status result =>
    obtain ⟨taken, after⟩ := result
    have places := accounted.places
    rcases sound.queue.linked.enqueueCmd ran with ⟨rfl, rfl, rfl, -⟩ |
      ⟨cmd, -, -, enqueued⟩
    · simpa [Machine.request, ran] using places
    · have moved := sound.queue.linked.tickets_enqueued enqueued
      by_cases accepted : status = .active ∨ status = .pending
      · rw [if_pos accepted] at moved
        simp only [Machine.request, ran, if_pos accepted, List.range_succ]
        refine (moved.append_right _).trans ?_
        exact (places.cons machine.tickets).trans
          (List.perm_append_singleton _ _).symm
      · rw [if_neg accepted] at moved
        simp only [Machine.request, ran, if_neg accepted]
        exact (moved.append_right _).trans places

theorem Accounted.step (accounted : machine.Accounted) (sound : machine.Sound vdevs kind)
    (few : vdevs.card ≤ pdevMaxVdevs) {move : Move}
    (promised : machine.Promised vdevs move) (timely : machine.Timely move)
    {last : Machine} (stepped : machine.step move = some last) : last.Accounted := by
  cases move with
  | request lookups cmd? =>
    obtain rfl := Option.some.inj stepped
    exact accounted.request sound lookups cmd?
  | remove key =>
    obtain rfl := Option.some.inj stepped
    exact accounted.spawn rfl
  | cancel calls =>
    obtain rfl := Option.some.inj stepped
    refine accounted.spawn (List.filterMap_eq_nil_iff.2 fun frame member => ?_)
    obtain ⟨⟨call, isActive⟩, -, rfl⟩ := List.mem_map.1 member
    rfl
  | fire n =>
    simp only [Machine.step] at stepped
    split at stepped
    · split at stepped
      · obtain rfl := Option.some.inj stepped
        exact accounted.spawn rfl
      · cases stepped
    · cases stepped
  | disable vdev =>
    obtain rfl := Option.some.inj stepped
    exact ⟨accounted.places, accounted.last⟩
  | run i choice => exact accounted.run sound few promised timely stepped

def TimelyMove (vdevs : Finset VdevId) (machine : Machine) (move : Move) : Prop :=
  machine.Promised vdevs move ∧ machine.Timely move

theorem accounted_of_reachable (few : vdevs.card ≤ pdevMaxVdevs)
    (reached : Lib.Reachable (· = initial kind) (Lib.StepOf step (TimelyMove vdevs)) machine) :
    machine.Sound vdevs kind ∧ machine.Accounted := by
  induction reached with
  | start same =>
    rw [same]
    exact ⟨.initial vdevs kind, .refl _, .nil⟩
  | next _ stepped ih =>
    obtain ⟨sound, accounted⟩ := ih
    obtain ⟨move, ⟨promised, timely⟩, stepped⟩ := stepped
    exact ⟨sound.step few ⟨move, promised, stepped⟩,
      accounted.step sound few promised timely stepped⟩

/-- What the callbacks for a command amount to: its memory is released at most once, no
callback follows, and it was released when it is on no list and held by nobody. -/
structure CallsBack (machine : Machine) (ticket : Nat) : Prop where
  atMostOnce : machine.log.count (ticket, .releaseMemCmd) ≤ 1
  last : ∀ newer older, machine.log = newer ++ (ticket, .releaseMemCmd) :: older →
    ∀ reason, (ticket, reason) ∉ newer
  gone : ticket ∉ machine.queue.tickets → ticket ∉ machine.held →
    machine.log.count (ticket, .releaseMemCmd) = 1

theorem count_released (log : List (Nat × CbReason)) (ticket : Nat) :
    (released log).count ticket = log.count (ticket, .releaseMemCmd) := by
  induction log with
  | nil => rfl
  | cons entry rest ih =>
    obtain ⟨other, reason⟩ := entry
    unfold released at ih ⊢
    by_cases release : reason = .releaseMemCmd
    · subst release
      simp [List.count_cons, ih]
    · simp [ih, release]

/-- In every run whose timeouts' callbacks are made while the command is on the lists or
held, every accepted command's memory is released once, after all other callbacks. -/
theorem callsBack_of_reachable (few : vdevs.card ≤ pdevMaxVdevs)
    (reached : Lib.Reachable (· = initial kind) (Lib.StepOf step (TimelyMove vdevs)) machine) :
    ∀ ticket < machine.tickets, machine.CallsBack ticket := by
  intro ticket accepted
  obtain ⟨-, accounted⟩ := accounted_of_reachable few reached
  have once := accounted.places.count_eq ticket
  rw [List.count_append, List.count_append, count_released,
    List.count_eq_one_of_mem List.nodup_range (List.mem_range.2 accepted)] at once
  refine ⟨by omega, fun newer older split reason there => ?_, fun unlisted free => ?_⟩
  · have last := accounted.last
    rw [split, List.pairwise_append] at last
    exact last.2.2 _ there _ List.mem_cons_self rfl rfl
  · rw [List.count_eq_zero_of_not_mem unlisted, List.count_eq_zero_of_not_mem free] at once
    omega

instance (machine : Machine) (move : Move) : Decidable (machine.Timely move) :=
  match move with
  | .run _ _ => inferInstanceAs (Decidable (∀ _ ∈ _, _))
  | .request _ _ | .remove _ | .cancel _ | .fire _ | .disable _ => isTrue trivial

instance (vdevs : Finset VdevId) (machine : Machine) (move : Move) :
    Decidable (TimelyMove vdevs machine move) :=
  inferInstanceAs (Decidable (_ ∧ _))

def timeoutMoves : List Move :=
  [.request {} (some (sampleCmd 0 1 false)), .run 0 {}, .run 0 {}, .run 0 {}, .fire 0,
    .run 1 {}]

def removeMoves : List Move :=
  [.remove (sampleCmd 0 1 false).key, .run 2 {}, .run 2 {}, .run 2 {}]

def lateMachine : Machine :=
  (Lib.play step (fun machine move => machine.Promised sampleVdevs move) (initial .nonScan)
    (timeoutMoves ++ removeMoves ++ [.run 1 {}])).get (by decide +kernel)

theorem lateMachine_not_callsBack :
    lateMachine.Reachable sampleVdevs .nonScan ∧ 0 < lateMachine.tickets ∧
      ¬lateMachine.CallsBack 0 := by
  have start : (initial .nonScan).Reachable sampleVdevs .nonScan := .start rfl
  refine ⟨Lib.play_reachable start _, by decide +kernel, fun callsBack => ?_⟩
  have log : lateMachine.log =
      [(0, .activeCmdTimeout)] ++ (0, .releaseMemCmd) :: [(0, .activateCmd)] := by
    decide +kernel
  exact callsBack.last _ _ log .activeCmdTimeout (List.mem_singleton_self _)

def timelyMachine : Machine :=
  (Lib.play step (TimelyMove sampleVdevs) (initial .nonScan)
    (timeoutMoves ++ [.run 1 {}] ++ removeMoves)).get (by decide +kernel)

theorem timelyMachine_callsBack : 0 < timelyMachine.tickets ∧ timelyMachine.CallsBack 0 := by
  have start : Lib.Reachable (· = initial .nonScan) (Lib.StepOf step (TimelyMove sampleVdevs))
      (initial .nonScan) := .start rfl
  have accepted : 0 < timelyMachine.tickets := by decide +kernel
  exact ⟨accepted, callsBack_of_reachable (by decide) (Lib.play_reachable start _) 0 accepted⟩

end Machine

end VendorModules.Ser
