import VendorModules.Ser.Sound
import VendorModules.Ser.Machine

namespace VendorModules.Ser

namespace Queue

variable {queue after : Queue} {vdevs : Finset VdevId} {activating : List NodeId}
  {windows : List VdevId}

inductive Walked (queue : Queue) (call : CancelCall) (isActive : Bool) :
    List Frame → Queue → Prop
  | ended {new : List Frame} {after : Queue} (remarked : queue.Remarked after)
      (last : ¬(queue.kind = .nonScan ∧ isActive = true) ∧ new = [] ∨
        (queue.kind = .nonScan ∧ isActive = true) ∧ new = [.cancelEnd]) :
      Walked queue call isActive new after
  | removed {n : NodeId} {accepted : Accepted} {marked mid : Queue} {hasPsoc : Bool}
      {walk : Walk} (remarked : queue.Remarked marked)
      (member : n ∈ queue.pdevList isActive) (chosen : queue.isSkipped call n = false)
      (content : (queue.node n).content = some accepted)
      (unmarked : isActive = true → (queue.node n).marks.markedForActivation = false)
      (unlists : marked.Unlists n isActive mid) :
      Walked queue call isActive
        [.cancelNotify accepted
          { call := call, isActive := isActive, hasPsoc := hasPsoc, walk := walk }]
        (mid.freeNode n)

theorem leaveWalk_ended {call : CancelCall} {isActive hasPsoc : Bool} {last : Queue}
    (remarked : queue.Remarked last) {new : List Frame} {callbacks : List (Nat × CbReason)}
    (ran : leaveWalk call isActive hasPsoc (.ended, last) = some (new, after, callbacks)) :
    queue.Walked call isActive new after ∧ callbacks = [] := by
  simp only [leaveWalk, Option.some.injEq, Prod.mk.injEq] at ran
  obtain ⟨rfl, rfl, rfl⟩ := ran
  refine ⟨.ended remarked ?_, rfl⟩
  rw [remarked.kind]
  split
  next both => exact .inr ⟨both, rfl⟩
  next not => exact .inl ⟨not, rfl⟩

theorem Linked.walked (linked : queue.Linked vdevs) {call : CancelCall}
    {isActive hasPsoc timerStops : Bool} {here passed : Option NodeId} {left : Nat}
    {new : List Frame} {callbacks : List (Nat × CbReason)}
    (ran : leaveWalk call isActive hasPsoc
      (queue.cancelWalk call isActive hasPsoc timerStops here passed left) =
        some (new, after, callbacks)) :
    queue.Walked call isActive new after ∧ callbacks = [] := by
  cases walk : queue.cancelWalk call isActive hasPsoc timerStops here passed left with
  | mk result left =>
    rw [walk] at ran
    rcases linked.cancelWalk walk with ⟨rfl, remarked⟩ | rfl |
      ⟨n, accepted, marked, mid, walk, rfl, remarked, member, chosen, content, unmarked,
        unlists, rfl⟩
    · exact leaveWalk_ended remarked ran
    · cases ran
    · simp only [leaveWalk, Option.some.injEq, Prod.mk.injEq] at ran
      obtain ⟨rfl, rfl, rfl⟩ := ran
      exact ⟨.removed remarked member chosen content unmarked unlists, rfl⟩

end Queue

def Frame.Moves : Frame → Prop
  | .movePending _ _ => True
  | .moveNext _ => True
  | .cancelEnd => True
  | _ => False

def Frame.Looks (queue : Queue) : Frame → Option VdevId → Prop
  | .movePending vdev removed, lookup => lookup = queue.vdevLookup (some vdev) removed
  | .moveNext _, lookup => lookup = none
  | .cancelEnd, lookup => lookup = none
  | _, _ => False

def Frame.Stops (queue : Queue) : Frame → Prop
  | .moveNext lookup => lookup.isSome = true ∨ queue.blockingCmdActive = true
  | .cancelEnd => queue.active ≠ [] ∨ queue.anyVdevCmdActive = true
  | _ => False

/-- A round has nothing to move: the first command of the vdev's list waits, or all of the
pdev's. -/
def Queue.Rests (queue : Queue) : Option VdevId → Prop
  | some vdev => ∀ n ∈ (queue.vdevPending vdev).head?,
      (queue.node n).vdev?.any queue.vdevActiveCmd = true ∨
        (queue.node n).marks.markedForMovement = true
  | none => queue.HoldsUp queue.pending

def Frame.Fits (kind : Kind) : Frame → Prop
  | .moveNext _ => kind = .nonScan
  | .cancelEnd => kind = .nonScan
  | _ => True

inductive Ran (queue : Queue) (choice : Choice) :
    Frame → List Frame → Queue → List (Nat × CbReason) → Prop
  | activate {n : NodeId} {ok : Bool} {accepted : Accepted}
      (content : (queue.node n).content = some accepted) :
      Ran queue choice (.activate n) [.activated n ok]
        (queue.setNode n { queue.node n with timer := true })
        [(accepted.ticket, .activateCmd)]
  | notStarted {n : NodeId} :
      Ran queue choice (.activate n) [.activated n false] queue []
  | activated {n : NodeId} {ok : Bool} :
      Ran queue choice (.activated n ok) [.settle n ok]
        (queue.setMarks n fun marks =>
          { marks with markedForActivation := false, isActive := true }) []
  | settle {n : NodeId} {ok : Bool} {new : List Frame}
      (goesOn : new = [] ∨ new = [.dequeue (.node n)] ∨ ∃ call, new = [.cancel call true]) :
      Ran queue choice (.settle n ok) new queue []
  | notFound {cmd : Target} {after : Queue} (remarked : queue.Remarked after) :
      Ran queue choice (.dequeue cmd) [] after []
  | dequeue {cmd : Target} {n : NodeId} {accepted : Accepted} {mid : Queue}
      (active : n ∈ queue.active) (content : (queue.node n).content = some accepted)
      (unmarked : (queue.node n).marks.markedForActivation = false)
      (unlists : queue.Unlists n true mid) :
      Ran queue choice (.dequeue cmd)
        [.movePending accepted.cmd.vdev accepted.cmd.isBlocking, .release accepted]
        ((mid.markRemoved n accepted.cmd.vdev).freeNode n) []
  | stay {frame : Frame} {after : Queue} (moves : frame.Moves)
      (remarked : queue.Remarked after)
      (stuck : queue.kind = .scan →
        queue.pending = [] ∨ choice.lookups.isActiveScanCmdAllowed = false)
      (rests : queue.kind = .nonScan → ∃ lookup, frame.Looks queue lookup ∧
        queue.Rests lookup) :
      Ran queue choice frame [] after []
  | move {frame : Frame} {new : List Frame} {n : NodeId} {accepted : Accepted}
      {marked after : Queue} (moves : frame.Moves) (remarked : queue.Remarked marked)
      (promotes : marked.Promotes n accepted after)
      (allowed : queue.kind = .scan → choice.lookups.isActiveScanCmdAllowed = true)
      (clear : queue.kind = .nonScan → queue.vdevActiveCmd accepted.cmd.vdev = false)
      (chosen : queue.kind = .nonScan →
        (accepted.cmd.isBlocking = true → queue.anyVdevCmdActive = false) ∨
          ∃ vdev rest, frame = .movePending vdev false ∧ queue.blockingCmdWaiting = 0 ∧
            queue.vdevPending vdev = n :: rest)
      (again : (∃ lookup, frame = .moveNext lookup) → queue.blockingCmdActive = false)
      (goesOn : queue.kind = .scan ∧ new = [.activate n] ∨
        queue.kind = .nonScan ∧ ∃ lookup, (frame.Looks queue lookup ∧
          ∀ vdev ∈ lookup, accepted.cmd.vdev = vdev) ∧
            new = [.activate n, .moveNext lookup]) :
      Ran queue choice frame new after []
  | release {accepted : Accepted} :
      Ran queue choice (.release accepted) [] queue [(accepted.ticket, .releaseMemCmd)]
  | cancel {call : CancelCall} {isActive : Bool} {new : List Frame} {after : Queue}
      (walked : queue.Walked call isActive new after) :
      Ran queue choice (.cancel call isActive) new after []
  | cancelNotify {accepted : Accepted} {cancelling : Cancelling} :
      Ran queue choice (.cancelNotify accepted cancelling)
        [.release accepted, .cancelResume accepted.cmd cancelling] queue
        [(accepted.ticket, .cancelCmd)]
  | cancelResume {cmd : Command} {cancelling : Cancelling} {new : List Frame}
      {after : Queue}
      (walked : (queue.settleCancel cmd cancelling.isActive).Walked cancelling.call
        cancelling.isActive new after) :
      Ran queue choice (.cancelResume cmd cancelling) new after []
  | stopped {frame : Frame} (moves : frame.Moves) (kind : queue.kind = .nonScan)
      (stops : frame.Stops queue) :
      Ran queue choice frame [] queue []
  | timeout {accepted : Accepted} {new : List Frame}
      (goesOn : new = [] ∨
        queue.isCmdPresent accepted.cmd.key true = true ∧ new = [.timeoutNotify accepted]) :
      Ran queue choice (.timeout accepted) new queue []
  | timeoutNotify {accepted : Accepted} :
      Ran queue choice (.timeoutNotify accepted) [.dequeue (.key accepted.cmd.key)] queue
        [(accepted.ticket, .activeCmdTimeout)]

namespace Queue

variable {queue after : Queue} {vdevs : Finset VdevId} {activating : List NodeId}
  {windows : List VdevId}

theorem nextOfVdev_some {vdev : VdevId} {n : NodeId} (next : queue.nextOfVdev vdev = some n) :
    (∃ rest, queue.vdevPending vdev = n :: rest) ∧
      (queue.node n).vdev?.any queue.vdevActiveCmd = false := by
  unfold nextOfVdev at next
  split at next
  · cases next
  next m rest first =>
    split at next
    · cases next
    next idle =>
      split at next
      · cases next
      · obtain rfl := Option.some.inj next
        exact ⟨⟨rest, first⟩, by simpa using idle⟩

theorem nextOfVdev_none {vdev : VdevId} (next : queue.nextOfVdev vdev = none) :
    queue.Rests (some vdev) := by
  intro n first
  unfold nextOfVdev at next
  split at next
  next empty => simp [empty] at first
  next m rest list =>
    obtain rfl : m = n := by simpa [list] using first
    split at next
    next busy => exact .inl busy
    · split at next
      next marked => exact .inr marked
      · cases next

theorem Linked.promoteNonScan (linked : queue.Linked vdevs) (few : vdevs.card ≤ pdevMaxVdevs)
    (kind : queue.kind = .nonScan) {n : NodeId} (pending : n ∈ queue.pending)
    (idle : (queue.node n).vdev?.any queue.vdevActiveCmd = false) :
    ∃ accepted after, queue.promote n = (some n, after) ∧ queue.Promotes n accepted after ∧
      queue.vdevActiveCmd accepted.cmd.vdev = false := by
  obtain ⟨accepted, content, member⟩ := linked.filled n (List.mem_append_left _ pending)
  have clear : queue.vdevActiveCmd accepted.cmd.vdev = false := by
    simpa [Node.vdev?, content] using idle
  have first : queue.findCmd queue.pending (queue.node n).key = some n := by
    cases found : queue.findCmd queue.pending (queue.node n).key with
    | none => exact absurd rfl (findCmd_none found n pending)
    | some m =>
      obtain ⟨there, same⟩ := findCmd_some found
      rw [linked.keys kind m there n pending same]
  obtain ⟨onVdev, onPdev⟩ := linked.room few kind member clear
  have room : ¬queue.Full accepted.cmd true := by
    rintro (⟨-, full⟩ | full)
    · rw [vdevList_true, onVdev] at full
      cases full
    · rw [pdevList_true] at full
      simp only [maxOnPdev, kind, if_true] at full
      omega
  obtain ⟨after, ran, promotes⟩ := linked.promote pending first content room
  exact ⟨accepted, after, ran, promotes, clear⟩

theorem Linked.moveNonScan (linked : queue.Linked vdevs) (few : vdevs.card ≤ pdevMaxVdevs)
    (kind : queue.kind = .nonScan) (lookup : Option VdevId) :
    (∃ after, queue.moveNonScan lookup = (none, after) ∧ queue.Remarked after ∧
      queue.Rests lookup) ∨
      ∃ n accepted marked after, queue.moveNonScan lookup = (some n, after) ∧
        queue.Remarked marked ∧ marked.Promotes n accepted after ∧
          queue.vdevActiveCmd accepted.cmd.vdev = false ∧
            (∀ vdev ∈ lookup, accepted.cmd.vdev = vdev) ∧
            ((accepted.cmd.isBlocking = true → queue.anyVdevCmdActive = false) ∨
              ∃ vdev rest, lookup = some vdev ∧ queue.vdevPending vdev = n :: rest) := by
  cases lookup with
  | some vdev =>
    simp only [Queue.moveNonScan]
    cases next : queue.nextOfVdev vdev with
    | none => exact .inl ⟨queue, rfl, .refl queue, nextOfVdev_none next⟩
    | some n =>
      obtain ⟨⟨rest, first⟩, idle⟩ := nextOfVdev_some next
      have member : n ∈ queue.pending.filter (queue.isOn vdev) := by
        have listed := linked.ofVdev kind false vdev
        rw [vdevList_false, pdevList_false, first] at listed
        rw [← listed]
        exact List.mem_cons_self
      obtain ⟨pending, on⟩ := List.mem_filter.1 member
      obtain ⟨accepted, after, ran, promotes, clear⟩ :=
        linked.promoteNonScan few kind pending idle
      have own : accepted.cmd.vdev = vdev := by
        simpa [isOn, Node.vdev?, promotes.content] using on
      exact .inr ⟨n, accepted, queue, after, ran, .refl queue, promotes, clear,
        by simp [own], .inr ⟨vdev, rest, rfl, first⟩⟩
  | none =>
    simp only [Queue.moveNonScan]
    obtain ⟨remarked, chosen, stuck⟩ := linked.nextOfPdev fun m member => member
    cases next : queue.nextOfPdev queue.pending with
    | mk chosenNode marked =>
      rw [next] at remarked chosen stuck
      cases chosenNode with
      | none => exact .inl ⟨marked, rfl, remarked, stuck rfl⟩
      | some n =>
        obtain ⟨member, idle, alone⟩ := chosen n rfl
        have kind' : marked.kind = .nonScan := remarked.kind.trans kind
        have pending : n ∈ marked.pending := by
          rw [remarked.pending]
          exact member
        have idle' : (marked.node n).vdev?.any marked.vdevActiveCmd = false := by
          rw [remarked.vdev?, remarked.bits]
          exact idle
        obtain ⟨accepted, after, ran, promotes, clear⟩ :=
          (linked.remarked remarked).promoteNonScan few kind' pending idle'
        rw [remarked.bits] at clear
        have same : (queue.node n).isBlocking = accepted.cmd.isBlocking := by
          have content : (marked.node n).content = some accepted := promotes.content
          have kept : (marked.node n).isBlocking = (queue.node n).isBlocking :=
            remarked.isBlocking n
          rw [← kept]
          simp [Node.isBlocking, content]
        rw [same] at alone
        exact .inr ⟨n, accepted, marked, after, ran, remarked, promotes, clear,
          by simp, .inl alone⟩

theorem Linked.moveRound (linked : queue.Linked vdevs) (few : vdevs.card ≤ pdevMaxVdevs)
    (kind : queue.kind = .nonScan) (choice : Choice) {frame : Frame} (moves : frame.Moves)
    {lookup : Option VdevId} (looks : frame.Looks queue lookup)
    (source : ∀ vdev, lookup = some vdev →
      frame = .movePending vdev false ∧ queue.blockingCmdWaiting = 0)
    (again : (∃ lookup, frame = .moveNext lookup) → queue.blockingCmdActive = false)
    {new : List Frame} {callbacks : List (Nat × CbReason)}
    (ran : queue.moveRound lookup = (new, after, callbacks)) :
    Ran queue choice frame new after callbacks := by
  unfold Queue.moveRound at ran
  rcases linked.moveNonScan few kind lookup with ⟨last, moved, remarked, rests⟩ |
    ⟨n, accepted, marked, last, moved, remarked, promotes, clear, own, chosen⟩
  · rw [moved] at ran
    cases ran
    exact .stay moves remarked (by simp [kind]) fun _ => ⟨lookup, looks, rests⟩
  · rw [moved] at ran
    cases ran
    refine .move moves remarked promotes (by simp [kind]) (fun _ => clear) (fun _ => ?_)
      again (.inr ⟨kind, lookup, ⟨looks, own⟩, rfl⟩)
    rcases chosen with alone | ⟨vdev, rest, same, first⟩
    · exact .inl alone
    · exact .inr ⟨vdev, rest, (source vdev same).1, (source vdev same).2, first⟩

theorem Linked.movePending_scan (linked : queue.Linked vdevs) (kind : queue.kind = .scan)
    {choice : Choice} (sensible : choice.lookups.Plausible queue) {frame : Frame}
    (moves : frame.Moves)
    (again : (∃ lookup, frame = .moveNext lookup) → queue.blockingCmdActive = false) {moved : Option NodeId}
    (ran : queue.moveScan choice.lookups = (moved, after)) :
    Ran queue choice frame (moved.map Frame.activate).toList after [] := by
  unfold moveScan at ran
  cases pending : queue.pending with
  | nil =>
    rw [pending] at ran
    cases ran
    exact .stay moves (.refl queue) (fun _ => .inl pending) (by simp [kind])
  | cons n rest =>
    rw [pending] at ran
    cases allowed : choice.lookups.isActiveScanCmdAllowed with
    | false =>
      simp only [allowed, Bool.false_eq_true, if_false] at ran
      cases ran
      exact .stay moves (.refl queue) (fun _ => .inr allowed) (by simp [kind])
    | true =>
      simp only [allowed, if_true] at ran
      have member : n ∈ queue.pending := by
        rw [pending]
        exact List.mem_cons_self
      obtain ⟨accepted, content, -⟩ :=
        linked.filled n (List.mem_append_left _ member)
      have first : queue.findCmd queue.pending (queue.node n).key = some n := by
        rw [pending]
        simp [findCmd]
      have room : ¬queue.Full accepted.cmd true := by
        obtain ⟨counts, few⟩ := sensible kind
        have less : choice.lookups.activeScans < choice.lookups.maxActiveScans := by
          simpa [Lookups.isActiveScanCmdAllowed] using allowed
        rintro (⟨nonScan, -⟩ | full)
        · rw [kind] at nonScan
          cases nonScan
        · rw [pdevList_true] at full
          simp only [maxOnPdev, kind, if_true] at full
          omega
      obtain ⟨last, promoted, promotes⟩ := linked.promote member first content room
      rw [promoted] at ran
      cases ran
      exact .move moves (.refl queue) promotes (fun _ => allowed)
        (fun nonScan => by simp [kind] at nonScan)
        (fun nonScan => by simp [kind] at nonScan) again (.inl ⟨kind, rfl⟩)

theorem Sound.settleCancel {cmd : Command} {isActive : Bool}
    (sound : queue.Sound vdevs activating
      ((if isActive then [cmd.vdev] else []) ++ windows)) :
    (queue.settleCancel cmd isActive).Sound vdevs activating windows := by
  unfold Queue.settleCancel
  cases isActive with
  | false =>
    split
    · exact sound
    · simp only [Bool.false_eq_true, if_false]
      split
      · exact sound.setFlags
      · exact sound
  | true =>
    split
    next kind =>
      exact ⟨sound.linked, sound.marked, sound.once,
        fun nonScan => by simp [kind] at nonScan,
        fun nonScan => by simp [kind] at nonScan⟩
    next kind => exact sound.settled

theorem Sound.resumed {cmd : Command} {cancelling : Cancelling}
    (sound : queue.Sound vdevs activating
      ((Frame.cancelResume cmd cancelling).window?.toList ++ windows)) :
    (queue.settleCancel cmd cancelling.isActive).Sound vdevs activating windows := by
  refine Sound.settleCancel ?_
  simp only [Frame.window?] at sound
  cases active : cancelling.isActive <;> simpa [active] using sound

theorem Sound.ran {frame : Frame} {choice : Choice}
    (sound : queue.Sound vdevs (frame.activating?.toList ++ activating)
      (frame.window?.toList ++ windows))
    (few : vdevs.card ≤ pdevMaxVdevs)
    (sensible : frame.counts = true → choice.lookups.Plausible queue)
    (fits : frame.Fits queue.kind) {new : List Frame} {callbacks : List (Nat × CbReason)}
    (ran : frame.run queue choice = some (new, after, callbacks)) :
    Ran queue choice frame new after callbacks := by
  cases frame with
  | activate n =>
    obtain ⟨accepted, content⟩ := Sound.content sound
    have callback : ((queue.node n).content.map fun accepted =>
        (accepted.ticket, CbReason.activateCmd)).toList =
          [(accepted.ticket, .activateCmd)] := by rw [content]; rfl
    simp only [Frame.run, callback] at ran
    split at ran
    · cases ran
      exact .activate content
    · cases ran
      exact .notStarted
  | activated n ok =>
    cases ran
    exact .activated
  | settle n ok =>
    cases ran
    refine .settle ?_
    split
    · exact .inr (.inl rfl)
    · split
      · exact .inr (.inr ⟨_, rfl⟩)
      · exact .inl rfl
  | dequeue cmd =>
    simp only [Frame.run] at ran
    cases locked : queue.dequeueLocked (cmd.resolve queue) with
    | mk removed last =>
      rw [locked] at ran
      rcases sound.linked.dequeueLocked locked with ⟨rfl, remarked⟩ |
        ⟨n, accepted, mid, rfl, found, content, unmarked, unlists, rfl⟩
      · cases ran
        exact .notFound remarked
      · cases ran
        exact .dequeue (findCmd_some found).1 content unmarked unlists
  | movePending vdev blockingCmdRemoved =>
    have moves : (Frame.movePending vdev blockingCmdRemoved).Moves := trivial
    simp only [Frame.run] at ran
    split at ran
    next kind =>
      cases moved : queue.moveScan choice.lookups with
      | mk chosen last =>
        have step := sound.linked.movePending_scan kind (sensible rfl) moves (by simp) moved
        rw [moved] at ran
        cases chosen <;> cases ran <;> exact step
    next kind =>
      refine sound.linked.moveRound few kind choice moves rfl (fun id same => ?_) (by simp)
        (Option.some.inj ran)
      unfold vdevLookup at same
      split at same
      next direct =>
        obtain rfl := Option.some.inj same
        simpa using direct
      · cases same
  | moveNext lookup =>
    have moves : (Frame.moveNext lookup).Moves := trivial
    simp only [Frame.run] at ran
    split at ran
    next stops =>
      cases ran
      exact .stopped moves fits (by simpa [Frame.Stops] using stops)
    next more =>
      refine sound.linked.moveRound few fits choice moves rfl (by simp) (fun _ => ?_)
        (Option.some.inj ran)
      simp only [Bool.or_eq_true, not_or, Bool.not_eq_true] at more
      exact more.2
  | release accepted =>
    cases ran
    exact .release
  | cancel call isActive =>
    obtain ⟨walked, rfl⟩ := sound.linked.walked ran
    exact .cancel walked
  | cancelNotify accepted cancelling =>
    cases ran
    exact .cancelNotify
  | cancelResume cmd cancelling =>
    have settled : (queue.settleCancel cmd cancelling.isActive).Sound vdevs activating
        windows := sound.resumed
    simp only [Frame.run] at ran
    split at ran
    · obtain ⟨walked, rfl⟩ := leaveWalk_ended (.refl _) ran
      exact .cancelResume walked
    · obtain ⟨walked, rfl⟩ := settled.linked.walked ran
      exact .cancelResume walked
  | cancelEnd =>
    have moves : Frame.cancelEnd.Moves := trivial
    simp only [Frame.run] at ran
    split at ran
    · refine sound.linked.moveRound few fits choice moves (by simp [Frame.Looks, vdevLookup])
        (fun id same => ?_) (by simp) (Option.some.inj ran)
      simp [vdevLookup] at same
    next busy =>
      cases ran
      refine .stopped moves fits ?_
      by_cases empty : queue.active = []
      · exact .inr (by simpa [empty] using busy)
      · exact .inl empty
  | timeout accepted =>
    cases ran
    refine .timeout ?_
    split
    next present => exact .inr ⟨present, rfl⟩
    · exact .inl rfl
  | timeoutNotify accepted =>
    cases ran
    exact .timeoutNotify

end Queue

end VendorModules.Ser
