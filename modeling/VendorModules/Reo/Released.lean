import VendorModules.Reo.Ordered

namespace VendorModules.Reo

open Lib

variable {base : Timestamp} {list after : List ListEntry} {entry : ListEntry}
  {cfg : Config} {ctx next : Context} {bound : Nat}

namespace FrameDescriptor

variable {desc : FrameDescriptor} {lastReleased : Option ReoParams}

theorem isStaleFrame_stale (stale : (desc.isStaleFrame lastReleased).isStale = true) :
    ∃ last ∈ lastReleased,
      compareGlobalTimestampsGte desc.globalTs last.globalTimestamp = false := by
  unfold isStaleFrame at stale
  split at stale
  · next last _ =>
      split at stale
      · cases stale
      · simp only [Bool.not_eq_eq_eq_not, Bool.not_true] at stale
        exact ⟨last, rfl, stale⟩
  · cases stale

theorem isStaleFrame_fresh (required : desc.reoRequired = true)
    (fresh : (desc.isStaleFrame lastReleased).isStale = false) :
    ∀ last ∈ lastReleased, (desc.isStaleFrame lastReleased).isParallelRx = true ∨
      compareGlobalTimestampsGte desc.globalTs last.globalTimestamp = true := by
  rintro last rfl
  unfold isStaleFrame at fresh ⊢
  simp only [required] at fresh ⊢
  split at fresh
  · next parallel => simp [parallel]
  · simp only [Bool.not_eq_eq_eq_not, Bool.not_false] at fresh
    exact .inr fresh

end FrameDescriptor

/-- The entries are marked as parallel or are so far past `base`. -/
def NotOlder (base : Timestamp) (bound : Nat) (list : List ListEntry) : Prop :=
  ∀ entry ∈ list, entry.isParallelRx = true ∨ bound ≤ entry.age base

namespace NotOlder

theorem updates (notOlder : NotOlder base bound list) (updates : ListUpdates list after) :
    NotOlder base bound after := by
  intro entry mem
  obtain ⟨before, there, updated⟩ := updates.mem mem
  rw [updated.isParallelRx, updated.age]
  exact notOlder before there

theorem append {first second : List ListEntry} (left : NotOlder base bound first)
    (right : NotOlder base bound second) : NotOlder base bound (first ++ second) := by
  intro entry mem
  rcases List.mem_append.1 mem with mem | mem
  · exact left entry mem
  · exact right entry mem

theorem left {first second : List ListEntry} (whole : NotOlder base bound (first ++ second)) :
    NotOlder base bound first := fun entry mem => whole entry (List.mem_append_left _ mem)

theorem right {first second : List ListEntry} (whole : NotOlder base bound (first ++ second)) :
    NotOlder base bound second := fun entry mem => whole entry (List.mem_append_right _ mem)

theorem insert {ts : Timestamp} (notOlder : NotOlder base bound list)
    (new : entry.isParallelRx = true ∨ bound ≤ entry.age base) :
    NotOlder base bound (notNewer ts list ++ entry :: newer ts list) := by
  intro other mem
  rcases List.mem_append.1 mem with mem | mem
  · exact notOlder other (List.takeWhile_subset _ mem)
  · rcases List.mem_cons.1 mem with rfl | mem
    · exact new
    · exact notOlder other (List.dropWhile_subset _ mem)

end NotOlder

def Context.out (ctx : Context) : List Released := ctx.sentUp ++ ctx.sending.toList

theorem Context.mem_out {released : Released} (mem : released ∈ ctx.out) :
    released ∈ ctx.sentUp ∨ ctx.sending = some released := by
  rcases List.mem_append.1 mem with sent | sending
  · exact .inl sent
  · exact .inr (Option.mem_toList.1 sending)

theorem Context.forall_out {P : Released → Prop} (sent : ∀ released ∈ ctx.sentUp, P released)
    {held : Released} (isHeld : ctx.sending = some held) (new : P held) :
    ∀ released ∈ ctx.out, P released := by
  intro released mem
  rcases Context.mem_out mem with earlier | sending
  · exact sent released earlier
  · obtain rfl := Option.some.inj (isHeld.symm.trans sending)
    exact new

theorem Context.mem_out_of_sentUp {released : Released} (mem : released ∈ ctx.sentUp) :
    released ∈ ctx.out := List.mem_append_left _ mem

/-- Of two frames the later one is not older, unless one of them was marked as parallel or
the inactivity timer fired in between. -/
def Released.Follows (base : Timestamp) (earlier later : Released) : Prop :=
  earlier.epoch = later.epoch → earlier.entry.isParallelRx = true ∨
    later.entry.isParallelRx = true ∨ earlier.entry.age base ≤ later.entry.age base

theorem out_pairwise (sent : ctx.sentUp.Pairwise (Released.Follows base))
    (last : ∀ released ∈ ctx.sentUp, ∀ next, ctx.sending = some next →
      released.Follows base next) : ctx.out.Pairwise (Released.Follows base) := by
  refine List.pairwise_append.2 ⟨sent, ?_, ?_⟩
  · cases ctx.sending with
    | none => exact .nil
    | some released => exact List.pairwise_singleton _ _
  · intro released mem next isNext
    exact last released mem next (Option.mem_toList.1 isNext)

theorem updateIngressList_asserted (now : BitVec 64) (list : List ListEntry)
    (desc : FrameDescriptor) (new : Option ListEntry) :
    (updateIngressList now list desc new).asserted =
      (notNewer desc.globalTs list).all fun cur => !desc.isStale || cur.isParallelRx := by
  unfold updateIngressList
  dsimp only
  split
  · split <;> rfl
  · rfl

/-- The assertions held so far, no list holds a frame older than the last one that was
released, and what was released came in order. -/
structure Current (base : Timestamp) (ctx : Context) : Prop where
  asserted : ctx.asserted = true
  lastWithin : ∀ last ∈ ctx.lastReleased, Serial.Within base last.globalTimestamp
  notOlder : ∀ last ∈ ctx.lastReleased,
    NotOlder base (Serial.past base last.globalTimestamp) (ctx.egress ++ ctx.ingress)
  stale : ∀ arriving, ctx.arriving = some arriving → arriving.desc.isStale = true →
    NotOlder base (Serial.past base arriving.desc.globalTs + 1) ctx.ingress
  fresh : ∀ arriving, ctx.arriving = some arriving → arriving.desc.isStale = false →
    arriving.desc.queuedList ≠ .egress → arriving.new.isSome →
    ∀ last ∈ ctx.lastReleased, arriving.desc.isParallelRx = true ∨
      Serial.past base last.globalTimestamp ≤ Serial.past base arriving.desc.globalTs
  outWithin : ∀ released ∈ ctx.out, Serial.Within base released.entry.globalTs
  outReady : ∀ released ∈ ctx.out, released.entry.isReadyToSendUp = true
  outEpoch : ∀ released ∈ ctx.out, released.epoch ≤ ctx.epoch
  outLast : ∀ released ∈ ctx.out, released.epoch = ctx.epoch →
    released.entry.isParallelRx = true ∨ ∃ last ∈ ctx.lastReleased,
      released.entry.age base ≤ Serial.past base last.globalTimestamp
  outOrder : ctx.out.Pairwise (Released.Follows base)

namespace Current

theorem initial : Current base .initial := by
  constructor <;> simp [Context.initial, Context.out]

theorem updateEgress (current : Current base ctx) (ordered : Ordered base ctx)
    {received : Received} (allocated : Bool)
    (within : Serial.Within base received.rxParams.globalTimestamp) :
    Current base (ctx.updateEgress cfg received allocated) := by
  unfold Context.updateEgress
  dsimp only
  split
  · exact current
  have isNew : ∀ entry,
      (if received.descriptor.forHost then some received.descriptor.prepareListEntry
        else none) = some entry →
      received.descriptor.reoRequired = true ∧ entry.rxParams = received.rxParams := by
    intro entry same
    split at same
    · next forHost =>
        obtain rfl := Option.some.inj same
        simp only [FrameDescriptor.forHost, Bool.and_eq_true] at forHost
        exact ⟨forHost.2, rfl⟩
    · cases same
  generalize (if received.descriptor.forHost then some received.descriptor.prepareListEntry
    else none) = new at isNew ⊢
  split
  · exact current
  next updated result =>
  have updates := updateEgressList_cases result
  clear result
  have here : (received.descriptor.isStaleFrame ctx.lastReleased).rxParams =
      received.rxParams := FrameDescriptor.isStaleFrame_rxParams
  have older := @FrameDescriptor.isStaleFrame_stale received.descriptor ctx.lastReleased
  have notOlder := @FrameDescriptor.isStaleFrame_fresh received.descriptor ctx.lastReleased
  generalize received.descriptor.isStaleFrame ctx.lastReleased = desc
    at here updates older notOlder
  have sameTs : desc.globalTs = received.descriptor.globalTs :=
    congrArg ReoParams.globalTimestamp here
  have inWindow : Serial.Within base desc.globalTs := sameTs ▸ within
  rw [← sameTs] at older notOlder
  have stale : desc.isStale = true →
      NotOlder base (Serial.past base desc.globalTs + 1) (ctx.egress ++ ctx.ingress) := by
    intro isStale entry mem
    obtain ⟨last, isLast, before⟩ := older isStale
    have lastIn := current.lastWithin last isLast
    have past : ¬compareGlobalTimestampsGte desc.globalTs last.globalTimestamp = true := by
      simp [before]
    rw [compareGlobalTimestampsGte_iff inWindow lastIn] at past
    exact (current.notOlder last isLast entry mem).imp_right fun later => by omega
  have fresh : desc.isStale = false → new.isSome → ∀ last ∈ ctx.lastReleased,
      desc.isParallelRx = true ∨
        Serial.past base last.globalTimestamp ≤ Serial.past base desc.globalTs := by
    intro isFresh isSome last isLast
    obtain ⟨entry, isEntry⟩ := Option.isSome_iff_exists.1 isSome
    have lastIn := current.lastWithin last isLast
    rw [← compareGlobalTimestampsGte_iff inWindow lastIn]
    exact notOlder (isNew entry isEntry).1 isFresh last isLast
  cases updates with
  | stale isStale =>
    have asserted : (notNewer desc.globalTs ctx.egress).all (·.isParallelRx) = true := by
      rw [List.all_eq_true]
      intro entry mem
      have left := (InOrder.append_iff.1 ordered.inOrder).1
      have upTo := left.le_of_notNewer inWindow mem
      rcases (stale isStale).left entry (List.takeWhile_subset _ mem) with parallel | later
      · exact parallel
      · omega
    refine { current with asserted := ?_, stale := ?_, fresh := ?_ }
    · simp [current.asserted, asserted]
    · intro arriving there _
      dsimp only at there
      split at there
      · obtain rfl := Option.some.inj there
        exact (stale isStale).right
      · cases there
    · intro arriving there isFresh
      dsimp only at there
      split at there
      · obtain rfl := Option.some.inj there
        rw [isStale] at isFresh
        cases isFresh
      · cases there
  | passed isFresh behind =>
    refine { current with asserted := ?_, stale := ?_, fresh := ?_ }
    · simp [current.asserted]
    · intro arriving there isStale
      dsimp only at there
      split at there
      · obtain rfl := Option.some.inj there
        rw [isFresh] at isStale
        cases isStale
      · cases there
    · intro arriving there _ _ isSome
      dsimp only at there
      split at there
      · obtain rfl := Option.some.inj there
        exact fresh isFresh isSome
      · cases there
  | queued entry leastGreater after isFresh same there greater inserted =>
    have newAge : (entry.beforeReady leastGreater desc.isParallelRx).age base =
        Serial.past base desc.globalTs := by
      simp [ListEntry.age, ListEntry.globalTs, (isNew entry same).2, FrameDescriptor.globalTs,
        here]
    refine { current with asserted := ?_, notOlder := ?_, stale := ?_, fresh := ?_ }
    · simp [current.asserted]
    · intro last isLast
      have kept := current.notOlder last isLast
      refine (NotOlder.updates (kept.left.insert ?_) inserted).append kept.right
      rw [newAge]
      exact fresh isFresh (by simp [same]) last isLast
    · intro arriving there isStale
      dsimp only at there
      split at there
      · obtain rfl := Option.some.inj there
        dsimp only at isStale
        rw [isFresh] at isStale
        cases isStale
      · cases there
    · intro arriving there _ unqueued
      dsimp only at there
      split at there
      · obtain rfl := Option.some.inj there
        exact absurd rfl unqueued
      · cases there

theorem updateIngress (current : Current base ctx) (ordered : Ordered base ctx)
    {arriving : Arriving} (isArriving : ctx.arriving = some arriving) (now : BitVec 64) :
    Current base (ctx.updateIngress arriving now) := by
  have fits := ordered.arriving arriving isArriving
  have right := (InOrder.append_iff.1 ordered.inOrder).2.1
  have asserted : (updateIngressList now ctx.ingress arriving.desc arriving.new).asserted =
      true := by
    rw [updateIngressList_asserted, List.all_eq_true]
    intro entry mem
    cases isStale : arriving.desc.isStale with
    | false => rfl
    | true =>
      have upTo := right.le_of_notNewer fits.within mem
      rcases current.stale arriving isArriving isStale entry
        (List.takeWhile_subset _ mem) with parallel | later
      · exact parallel
      · omega
  refine { current with asserted := ?_, notOlder := ?_, stale := ?_, fresh := ?_ }
  · simp [Context.updateIngress, current.asserted, asserted]
  · intro last isLast
    have kept := current.notOlder last isLast
    refine kept.left.append ?_
    cases updateIngressList_cases now ctx.ingress arriving.desc arriving.new with
    | passed updates => exact kept.right.updates updates
    | queued entry ahead later isNew fresh unqueued inserted =>
      obtain ⟨older, behind, olderUpdates, laterUpdates, same⟩ := inserted
      change NotOlder base _
        (updateIngressList now ctx.ingress arriving.desc arriving.new).list
      rw [same]
      refine NotOlder.updates (kept.right.insert ?_)
        (ListUpdates.append olderUpdates (.cons (.refl _) laterUpdates))
      have newAge : (entry.beforeWaiting ahead arriving.desc.isParallelRx later).age base =
          Serial.past base arriving.desc.globalTs := by
        simp [ListEntry.age, ListEntry.globalTs, (fits.new entry isNew).2,
          FrameDescriptor.globalTs]
      rw [newAge]
      exact current.fresh arriving isArriving fresh unqueued (by simp [isNew]) last isLast
  · simp [Context.updateIngress]
  · simp [Context.updateIngress]

theorem listUpdates (current : Current base ctx) (free : ctx.arriving = none)
    {ingress egress : List ListEntry}
    (updates : ListUpdates (ctx.egress ++ ctx.ingress) (egress ++ ingress)) :
    Current base { ctx with ingress := ingress, egress := egress } :=
  { current with
    notOlder := fun last isLast => (current.notOlder last isLast).updates updates
    stale := by simp [free]
    fresh := by simp [free] }

theorem release (current : Current base ctx) (ordered : Ordered base ctx)
    (idle : ctx.sending = none) {rest : List ListEntry} (deliver : Bool)
    (isFirst : ctx.egress = entry :: rest) (ready : entry.isReadyToSendUp = true) :
    (ctx.lastReleased.all (fun last =>
        compareGlobalTimestampsGte entry.globalTs last.globalTimestamp) = true →
      Current base { ctx with
        egress := rest, lastReleased := some entry.rxParams
        sending := some { entry := entry, epoch := ctx.epoch, deliver := deliver } }) ∧
    (ctx.lastReleased.all (fun last =>
        compareGlobalTimestampsGte entry.globalTs last.globalTimestamp) = false →
      Current base { ctx with
        egress := rest
        asserted := ctx.asserted && entry.isParallelRx
        sending := some { entry := entry, epoch := ctx.epoch, deliver := deliver } }) := by
  have whole := ordered.inOrder
  rw [isFirst] at whole
  have within : Serial.Within base entry.globalTs := whole.within entry List.mem_cons_self
  have outBefore : ctx.out = ctx.sentUp := by simp [Context.out, idle]
  have outWithin := current.outWithin
  have outReady := current.outReady
  have outEpoch := current.outEpoch
  have outLast := current.outLast
  have outOrder := current.outOrder
  rw [outBefore] at outWithin outReady outEpoch outLast outOrder
  constructor
  · intro past
    have notBefore : ∀ last ∈ ctx.lastReleased,
        Serial.past base last.globalTimestamp ≤ entry.age base := by
      intro last isLast
      have gte := (Option.all_eq_true _ _).1 past last isLast
      exact (compareGlobalTimestampsGte_iff within (current.lastWithin last isLast)).1 gte
    have after : ∀ released ∈ ctx.sentUp, released.epoch = ctx.epoch →
        released.entry.isParallelRx = true ∨ released.entry.age base ≤ entry.age base := by
      intro released mem sameEpoch
      refine (outLast released mem sameEpoch).imp_right ?_
      rintro ⟨last, isLast, upTo⟩
      exact upTo.trans (notBefore last isLast)
    refine ⟨current.asserted, ?_, ?_, current.stale, ?_, ?_, ?_, ?_, ?_, ?_⟩
    · rintro _ ⟨⟩
      exact within
    · rintro _ ⟨⟩ other mem
      exact .inr (whole.head_le mem)
    · rintro arriving there isFresh unqueued isSome _ ⟨⟩
      exact .inr ((ordered.arriving arriving there).behind isFresh unqueued isSome entry
        (isFirst ▸ List.mem_cons_self))
    · exact Context.forall_out outWithin rfl within
    · exact Context.forall_out outReady rfl ready
    · exact Context.forall_out outEpoch rfl (Nat.le_refl _)
    · refine Context.forall_out ?_ rfl fun _ => .inr ⟨_, rfl, Nat.le_refl _⟩
      intro released sent sameEpoch
      exact (after released sent sameEpoch).imp_right fun upTo => ⟨_, rfl, upTo⟩
    · refine out_pairwise outOrder ?_
      rintro released mem _ ⟨⟩ sameEpoch
      exact (after released mem sameEpoch).imp_right .inr
  · intro late
    obtain ⟨last, isLast, before⟩ := (Option.all_eq_false _ _).1 late
    have parallel : entry.isParallelRx = true := by
      have lastIn := current.lastWithin last isLast
      rcases current.notOlder last isLast entry
        (List.mem_append_left _ (isFirst ▸ List.mem_cons_self)) with parallel | upTo
      · exact parallel
      · exact absurd ((compareGlobalTimestampsGte_iff within lastIn).2 upTo) (by simp [before])
    refine ⟨?_, current.lastWithin, ?_, current.stale, current.fresh, ?_, ?_, ?_, ?_, ?_⟩
    · simp [current.asserted, parallel]
    · intro last isLast other mem
      refine current.notOlder last isLast other ?_
      rw [isFirst]
      exact List.mem_cons_of_mem _ mem
    · exact Context.forall_out outWithin rfl within
    · exact Context.forall_out outReady rfl ready
    · exact Context.forall_out outEpoch rfl (Nat.le_refl _)
    · exact Context.forall_out outLast rfl fun _ => .inl parallel
    · refine out_pairwise outOrder ?_
      rintro released mem _ ⟨⟩ -
      exact .inr (.inl parallel)

theorem sendUp (current : Current base ctx) {released : Released}
    (isSending : ctx.sending = some released) :
    Current base { ctx with
      sending := none
      sentUp := if released.deliver then ctx.sentUp ++ [released] else ctx.sentUp } := by
  have less : List.Sublist (Context.out { ctx with
      sending := none
      sentUp := if released.deliver then ctx.sentUp ++ [released] else ctx.sentUp }) ctx.out := by
    simp only [Context.out, isSending, Option.toList_none, List.append_nil, Option.toList_some]
    split
    · exact .refl _
    · exact List.sublist_append_left _ _
  exact { current with
    outWithin := fun other mem => current.outWithin other (less.subset mem)
    outReady := fun other mem => current.outReady other (less.subset mem)
    outEpoch := fun other mem => current.outEpoch other (less.subset mem)
    outLast := fun other mem => current.outLast other (less.subset mem)
    outOrder := current.outOrder.sublist less }

theorem inactivity (current : Current base ctx) :
    Current base { ctx with lastReleased := none, epoch := ctx.epoch + 1 } :=
  { current with
    lastWithin := by simp
    notOlder := by simp
    fresh := by simp
    outEpoch := fun released mem => Nat.le_succ_of_le (current.outEpoch released mem)
    outLast := fun released mem sameEpoch => by
      have upTo := current.outEpoch released mem
      have sameEpoch : released.epoch = ctx.epoch + 1 := sameEpoch
      omega }

theorem step {move : Move} (current : Current base ctx) (ordered : Ordered base ctx)
    (within : move.Within base) (stepped : ctx.step cfg move = some next) :
    Current base next := by
  cases move with
  | arrive received allocated =>
    simp only [Context.step, Option.ite_none_left_eq_some, Option.some.injEq] at stepped
    obtain ⟨-, rfl⟩ := stepped
    exact current.updateEgress ordered allocated within
  | arriveIngress now =>
    simp only [Context.step, Option.map_eq_some_iff] at stepped
    obtain ⟨arriving, isArriving, rfl⟩ := stepped
    exact current.updateIngress ordered isArriving now
  | ageout now =>
    simp only [Context.step, Option.ite_none_left_eq_some, Option.some.injEq] at stepped
    obtain ⟨free, rfl⟩ := stepped
    exact current.listUpdates (by simpa using free)
      (ListUpdates.append (ListUpdates.refl _) (ageoutEntries_updates _ now _))
  | moveEntries =>
    simp only [Context.step, Option.ite_none_left_eq_some, Option.some.injEq] at stepped
    obtain ⟨free, rfl⟩ := stepped
    exact current.listUpdates (by simpa using free) (moveEntries_updates _ _ _ _).1
  | release linkBitmap =>
    simp only [Context.step, Option.ite_none_left_eq_some, Option.some.injEq] at stepped
    obtain ⟨idle, rfl⟩ := stepped
    cases Context.releaseFirst_cases cfg ctx linkBitmap with
    | stays same => rw [same]; exact current
    | first entry rest deliver isFirst ready after =>
      obtain ⟨onTime, late⟩ := current.release ordered (by simpa using idle) deliver
        isFirst ready
      rcases after with ⟨past, same⟩ | ⟨before, same⟩
      · rw [same]; exact onTime past
      · rw [same]; exact late before
  | sendUp =>
    simp only [Context.step, Option.map_eq_some_iff] at stepped
    obtain ⟨released, isSending, rfl⟩ := stepped
    exact current.sendUp isSending
  | inactivity =>
    obtain rfl := Option.some.inj stepped
    exact current.inactivity

theorem of_reachable
    (reached : Reachable (· = .initial) (StepOf (Context.step cfg) fun _ move => move.Within base)
      ctx) : Ordered base ctx ∧ Current base ctx := by
  induction reached with
  | start initial => subst initial; exact ⟨.initial, .initial⟩
  | next _ taken ih =>
    obtain ⟨move, within, stepped⟩ := taken
    exact ⟨ih.1.step within stepped, ih.2.step ih.1 within stepped⟩

end Current

/-- The steps of arriving frames, ageout ticks, moves and releases, with the timestamps in
the half of the range from `base`. -/
def Move.OnTime (base : Timestamp) : Move → Prop
  | .inactivity => False
  | move => move.Within base

theorem Move.OnTime.within {move : Move} (onTime : move.OnTime base) : move.Within base := by
  cases move with
  | inactivity => exact onTime.elim
  | arrive received allocated => exact onTime
  | arriveIngress now => trivial
  | ageout now => trivial
  | moveEntries => trivial
  | release linkBitmap => trivial
  | sendUp => trivial

theorem Context.updateEgress_epoch (received : Received) (allocated : Bool) :
    (ctx.updateEgress cfg received allocated).epoch = ctx.epoch := by
  unfold updateEgress
  dsimp only
  split
  · rfl
  · split <;> rfl

theorem Context.epoch_step {move : Move} (onTime : move.OnTime base)
    (stepped : ctx.step cfg move = some next) : next.epoch = ctx.epoch := by
  cases move with
  | arrive received allocated =>
    simp only [Context.step, Option.ite_none_left_eq_some, Option.some.injEq] at stepped
    obtain ⟨-, rfl⟩ := stepped
    exact updateEgress_epoch received allocated
  | arriveIngress now =>
    simp only [Context.step, Option.map_eq_some_iff] at stepped
    obtain ⟨arriving, -, rfl⟩ := stepped
    rfl
  | ageout now =>
    simp only [Context.step, Option.ite_none_left_eq_some, Option.some.injEq] at stepped
    obtain ⟨-, rfl⟩ := stepped
    rfl
  | moveEntries =>
    simp only [Context.step, Option.ite_none_left_eq_some, Option.some.injEq] at stepped
    obtain ⟨-, rfl⟩ := stepped
    rfl
  | release linkBitmap =>
    simp only [Context.step, Option.ite_none_left_eq_some, Option.some.injEq] at stepped
    obtain ⟨-, rfl⟩ := stepped
    cases Context.releaseFirst_cases cfg ctx linkBitmap with
    | stays same => rw [same]
    | first entry rest deliver isFirst ready after =>
      rcases after with ⟨-, same⟩ | ⟨-, same⟩ <;> rw [same]
  | sendUp =>
    simp only [Context.step, Option.map_eq_some_iff] at stepped
    obtain ⟨released, -, rfl⟩ := stepped
    rfl
  | inactivity => exact onTime.elim

structure ReleasedInOrder (ctx : Context) : Prop where
  asserted : ctx.asserted = true
  ready : ∀ released ∈ ctx.sentUp, released.entry.isReadyToSendUp = true
  egressReady : ∀ entry ∈ ctx.egress, entry.isReadyToSendUp = true
  order : ctx.sentUp.Pairwise fun earlier later =>
    earlier.entry.isParallelRx = true ∨ later.entry.isParallelRx = true ∨
      compareGlobalTimestampsGte later.entry.globalTs earlier.entry.globalTs = true

/-- Whatever the order of the steps, frames go to the upper layer in the order of their
timestamps, those aside that were marked as parallel, and no assertion fails. -/
theorem releasedInOrder_of_reachable (cfg : Config) (base : Timestamp) (ctx : Context)
    (reached : Reachable (· = .initial) (StepOf (Context.step cfg) fun _ move => move.OnTime base)
      ctx) : ReleasedInOrder ctx := by
  have wider := reached.mono fun _ _ ⟨move, onTime, stepped⟩ =>
    (⟨move, onTime.within, stepped⟩ :
      StepOf (Context.step cfg) (fun _ move => move.Within base) _ _)
  obtain ⟨ordered, current⟩ := Current.of_reachable wider
  have epoch : ctx.epoch = 0 := by
    clear wider ordered current
    induction reached with
    | start initial => subst initial; rfl
    | next _ taken ih =>
      obtain ⟨move, onTime, stepped⟩ := taken
      exact (Context.epoch_step onTime stepped).trans ih
  refine ⟨current.asserted, ?_, ordered.ready, ?_⟩
  · exact fun released mem => current.outReady released (Context.mem_out_of_sentUp mem)
  · have order := (List.pairwise_append.1 current.outOrder).1
    refine order.imp_of_mem fun {earlier later} earlierMem laterMem follows => ?_
    have earlierOut := Context.mem_out_of_sentUp earlierMem
    have laterOut := Context.mem_out_of_sentUp laterMem
    have earlierEpoch := current.outEpoch earlier earlierOut
    have laterEpoch := current.outEpoch later laterOut
    rw [compareGlobalTimestampsGte_iff (current.outWithin later laterOut)
      (current.outWithin earlier earlierOut)]
    exact follows (by omega)

instance (base : Timestamp) : DecidablePred (Move.OnTime base)
  | .inactivity => inferInstanceAs (Decidable False)
  | .arrive received _ =>
    inferInstanceAs (Decidable (Serial.Within base received.rxParams.globalTimestamp))
  | .arriveIngress _ | .ageout _ | .moveEntries | .release _ | .sendUp =>
    inferInstanceAs (Decidable True)

def uncrossedContext : Context :=
  (play (Context.step sampleConfig) (fun _ move => move.OnTime 0) .initial
    (crossedMoves ++ [.moveEntries, .release 3, .sendUp, .release 3, .sendUp])).get
      (by decide +kernel)

theorem uncrossedContext_releasedInOrder :
    uncrossedContext.sentUp.map (·.entry.globalTs) = [50, 100] ∧
      ReleasedInOrder uncrossedContext := by
  refine ⟨by decide +kernel, releasedInOrder_of_reachable sampleConfig 0 _ ?_⟩
  have start : Reachable (· = .initial)
      (StepOf (Context.step sampleConfig) fun _ move => move.OnTime 0) .initial := .start rfl
  exact play_reachable start _

end VendorModules.Reo
