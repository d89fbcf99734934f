import VendorModules.Reo.Updates

namespace VendorModules.Reo

open Lib

variable {base ts ts1 ts2 : Timestamp} {list after first second : List ListEntry}
  {entry new : ListEntry} {cfg : Config} {ctx next : Context}

theorem compareGlobalTimestampsGte_iff (one : Serial.Within base ts1)
    (two : Serial.Within base ts2) :
    compareGlobalTimestampsGte ts1 ts2 = true ↔
      Serial.past base ts2 ≤ Serial.past base ts1 := by
  rw [← Serial.notBefore_iff one two]
  exact decide_eq_true_iff

/-- How far the entry's timestamp is past `base`. -/
def ListEntry.age (base : Timestamp) (entry : ListEntry) : Nat := Serial.past base entry.globalTs

theorem ListEntry.Updates.age (updates : entry.Updates new) : new.age base = entry.age base :=
  congrArg (Serial.past base) updates.globalTs

/-- The entries are in the order of their timestamps, all of them in the half of the range
from `base`. -/
structure InOrder (base : Timestamp) (list : List ListEntry) : Prop where
  within : ∀ entry ∈ list, Serial.Within base entry.globalTs
  sorted : list.Pairwise fun a b => a.age base ≤ b.age base

namespace InOrder

theorem nil : InOrder base [] := ⟨by simp, .nil⟩

theorem append_iff : InOrder base (first ++ second) ↔
    InOrder base first ∧ InOrder base second ∧
      ∀ a ∈ first, ∀ b ∈ second, a.age base ≤ b.age base := by
  constructor
  · intro whole
    obtain ⟨left, right, across⟩ := List.pairwise_append.1 whole.sorted
    exact ⟨⟨fun entry mem => whole.within entry (List.mem_append_left _ mem), left⟩,
      ⟨fun entry mem => whole.within entry (List.mem_append_right _ mem), right⟩, across⟩
  · rintro ⟨left, right, across⟩
    refine ⟨?_, List.pairwise_append.2 ⟨left.sorted, right.sorted, across⟩⟩
    intro entry mem
    rcases List.mem_append.1 mem with mem | mem
    · exact left.within entry mem
    · exact right.within entry mem

theorem of_cons (whole : InOrder base (entry :: list)) : InOrder base list :=
  ⟨fun other mem => whole.within other (List.mem_cons_of_mem _ mem),
    (List.pairwise_cons.1 whole.sorted).2⟩

theorem head_le (whole : InOrder base (entry :: list)) (mem : new ∈ list) :
    entry.age base ≤ new.age base := (List.pairwise_cons.1 whole.sorted).1 new mem

theorem le_getLast (inOrder : InOrder base list) (isLast : list.getLast? = some entry)
    (mem : new ∈ list) : new.age base ≤ entry.age base := by
  obtain ⟨before, rfl⟩ := List.getLast?_eq_some_iff.1 isLast
  rcases List.mem_append.1 mem with early | last
  · exact (List.pairwise_append.1 inOrder.sorted).2.2 new early entry List.mem_cons_self
  · rw [List.mem_singleton.1 last]

theorem congr (inOrder : InOrder base list)
    (same : after.map (·.rxParams) = list.map (·.rxParams)) : InOrder base after := by
  have within := inOrder.within
  have sorted := inOrder.sorted
  have members : ∀ list : List ListEntry,
      (∀ entry ∈ list, Serial.Within base entry.globalTs) ↔
        ∀ params ∈ list.map (·.rxParams), Serial.Within base params.globalTimestamp :=
    fun list => by simp only [List.forall_mem_map]; rfl
  have pairs : ∀ list : List ListEntry,
      list.Pairwise (fun a b => a.age base ≤ b.age base) ↔
        (list.map (·.rxParams)).Pairwise fun a b =>
          Serial.past base a.globalTimestamp ≤ Serial.past base b.globalTimestamp :=
    fun list => by rw [List.pairwise_map]; rfl
  rw [members, ← same, ← members] at within
  rw [pairs, ← same, ← pairs] at sorted
  exact ⟨within, sorted⟩

theorem updates (inOrder : InOrder base list) (updates : ListUpdates list after) :
    InOrder base after := inOrder.congr updates.rxParams

theorem notNewer_eq (inOrder : InOrder base list) (within : Serial.Within base ts) :
    notNewer ts list = list.takeWhile fun cur => cur.age base ≤ Serial.past base ts := by
  refine takeWhile_congr_mem fun cur mem => ?_
  rw [Bool.eq_iff_iff, compareGlobalTimestampsGte_iff within (inOrder.within cur mem)]
  exact decide_eq_true_iff.symm

theorem newer_eq (inOrder : InOrder base list) (within : Serial.Within base ts) :
    newer ts list = list.dropWhile fun cur => cur.age base ≤ Serial.past base ts := by
  refine dropWhile_congr_mem fun cur mem => ?_
  rw [Bool.eq_iff_iff, compareGlobalTimestampsGte_iff within (inOrder.within cur mem)]
  exact decide_eq_true_iff.symm

theorem le_of_notNewer (inOrder : InOrder base list) (within : Serial.Within base ts)
    (mem : entry ∈ notNewer ts list) : entry.age base ≤ Serial.past base ts := by
  rw [inOrder.notNewer_eq within] at mem
  exact @le_of_mem_takeWhile _ (ListEntry.age base) _ _ _ mem

theorem insert (inOrder : InOrder base list) (within : Serial.Within base new.globalTs) :
    InOrder base (notNewer new.globalTs list ++ new :: newer new.globalTs list) := by
  constructor
  · intro entry mem
    rcases List.mem_append.1 mem with mem | mem
    · exact inOrder.within entry (List.takeWhile_subset _ mem)
    · rcases List.mem_cons.1 mem with rfl | mem
      · exact within
      · exact inOrder.within entry (List.dropWhile_subset _ mem)
  · rw [inOrder.notNewer_eq within, inOrder.newer_eq within]
    exact @sorted_insert _ (ListEntry.age base) _ _ inOrder.sorted

end InOrder

/-- `new` is put where it belongs, and the other entries are updated in their places. -/
def Inserted (new : ListEntry) (list after : List ListEntry) : Prop :=
  ∃ older later, ListUpdates (notNewer new.globalTs list) older ∧
    ListUpdates (newer new.globalTs list) later ∧ after = older ++ new :: later

namespace Inserted

theorem updates (inserted : Inserted new list after) :
    ListUpdates (notNewer new.globalTs list ++ new :: newer new.globalTs list) after := by
  obtain ⟨older, later, before, behind, rfl⟩ := inserted
  exact ListUpdates.append before (.cons (.refl new) behind)

theorem inOrder (inserted : Inserted new list after) (inOrder : InOrder base list)
    (within : Serial.Within base new.globalTs) : InOrder base after :=
  (inOrder.insert within).updates inserted.updates

theorem mem (inserted : Inserted new list after) (mem : entry ∈ after) :
    entry = new ∨ ∃ before ∈ list, before.Updates entry := by
  obtain ⟨older, later, before, behind, rfl⟩ := inserted
  rcases List.mem_append.1 mem with mem | mem
  · obtain ⟨old, there, updated⟩ := before.mem mem
    exact .inr ⟨old, List.takeWhile_subset _ there, updated⟩
  · rcases List.mem_cons.1 mem with rfl | mem
    · exact .inl rfl
    · obtain ⟨old, there, updated⟩ := behind.mem mem
      exact .inr ⟨old, List.dropWhile_subset _ there, updated⟩

end Inserted

namespace FrameDescriptor

variable {desc : FrameDescriptor} {lastReleased : Option ReoParams}

@[simp] theorem isStaleFrame_rxParams :
    (desc.isStaleFrame lastReleased).rxParams = desc.rxParams := by
  unfold isStaleFrame
  split
  · split <;> rfl
  · rfl

theorem prepareListEntry_counted (balanced : desc.waitCount.Balanced) :
    desc.prepareListEntry.Counted where
  balanced := balanced
  waits := by simp [prepareListEntry]

end FrameDescriptor

theorem first_newer {leastGreater : ListEntry} {later : List ListEntry}
    (first : newer ts list = leastGreater :: later) :
    compareGlobalTimestampsGte ts leastGreater.globalTs = false := by
  unfold newer at first
  have stops := List.head?_dropWhile_not
    (fun cur : ListEntry => compareGlobalTimestampsGte ts cur.globalTs) list
  rw [first] at stops
  exact stops

inductive EgressUpdate (list : List ListEntry) (desc : FrameDescriptor)
    (new : Option ListEntry) : Updated → Prop
  /-- It is stale. -/
  | stale (isStale : desc.isStale = true) :
      EgressUpdate list desc new
        { list := list, desc := desc
          asserted := (notNewer desc.globalTs list).all (·.isParallelRx) }
  /-- It is left to the ingress list. -/
  | passed (fresh : desc.isStale = false)
      (behind : new.isSome → ∀ last ∈ list.getLast?,
        compareGlobalTimestampsGte desc.globalTs last.globalTs = true) :
      EgressUpdate list desc new { list := list, desc := desc, asserted := true }
  /-- It is put into the egress list, before a newer entry. -/
  | queued (entry leastGreater : ListEntry) (after : List ListEntry)
      (fresh : desc.isStale = false) (isNew : new = some entry)
      (there : leastGreater ∈ list)
      (greater : compareGlobalTimestampsGte desc.globalTs leastGreater.globalTs = false)
      (inserted : ListUpdates
        (notNewer desc.globalTs list ++
          entry.beforeReady leastGreater desc.isParallelRx :: newer desc.globalTs list) after) :
      EgressUpdate list desc new
        { list := after
          desc := { desc with
            waitCount := (entry.beforeReady leastGreater desc.isParallelRx).waitCount
            queuedList := .egress }
          asserted := true }

theorem updateEgressList_cases {max : Nat} {lastReleased : Option ReoParams}
    {desc : FrameDescriptor} {new : Option ListEntry} {updated : Updated}
    (result : updateEgressList max list lastReleased desc new = some updated) :
    EgressUpdate list (desc.isStaleFrame lastReleased) new updated := by
  unfold updateEgressList at result
  dsimp only at result
  generalize desc.isStaleFrame lastReleased = desc at result ⊢
  split at result
  · next stale =>
      obtain rfl := Option.some.inj result
      exact .stale stale
  · next fresh =>
      have fresh : desc.isStale = false := by simpa using fresh
      split at result
      · next entry last isLast =>
          split at result
          · next behind =>
              obtain rfl := Option.some.inj result
              refine .passed fresh fun _ other mem => ?_
              rw [isLast] at mem
              obtain rfl := Option.some.inj mem
              exact behind
          · split at result
            · next leastGreater later isLater =>
                obtain rfl := Option.some.inj result
                have there : leastGreater ∈ newer desc.globalTs list := by
                  rw [isLater]
                  exact List.mem_cons_self
                refine .queued entry leastGreater _ fresh rfl (List.dropWhile_subset _ there)
                  (first_newer isLater) ?_
                rw [isLater]
                split
                · exact handleEgressOverflow_updates _ _
                · exact ListUpdates.refl _
            · cases result
      · next other =>
          obtain rfl := Option.some.inj result
          refine .passed fresh fun isNew last isLast => ?_
          obtain ⟨entry, rfl⟩ := Option.isSome_iff_exists.1 isNew
          exact absurd isLast (other entry last rfl)

inductive IngressUpdate (list : List ListEntry) (desc : FrameDescriptor)
    (new : Option ListEntry) (after : List ListEntry) : Prop
  /-- It is not put into the list. -/
  | passed (updates : ListUpdates list after)
  /-- It is. -/
  | queued (entry : ListEntry) (ahead : Option ListEntry) (now : BitVec 64)
      (isNew : new = some entry) (fresh : desc.isStale = false)
      (unqueued : desc.queuedList ≠ .egress)
      (inserted : ∃ older later, ListUpdates (notNewer desc.globalTs list) older ∧
        ListUpdates (newer desc.globalTs list) later ∧
        after = older ++ entry.beforeWaiting ahead desc.isParallelRx now :: later)

theorem updateIngressList_cases (now : BitVec 64) (list : List ListEntry)
    (desc : FrameDescriptor) (new : Option ListEntry) :
    IngressUpdate list desc new (updateIngressList now list desc new).list := by
  have older : ListUpdates (notNewer desc.globalTs list)
      ((notNewer desc.globalTs list).map (·.updateWaitCount desc.waitCount)) :=
    ListUpdates.map fun _ => ListEntry.updates_updateWaitCount
  have later : ListUpdates (newer desc.globalTs list)
      ((newer desc.globalTs list).map
        (·.countDown desc.rxParams.linkId (BitVec.ofInt 16 desc.pktCtrDelta))) :=
    ListUpdates.map fun _ => ListEntry.updates_countDown
  have whole := ListUpdates.append older later
  rw [notNewer_append_newer] at whole
  unfold updateIngressList
  dsimp only
  split
  · next entry =>
      split
      · next free =>
          simp only [Bool.and_eq_true, Bool.not_eq_eq_eq_not, Bool.not_true, decide_eq_true_iff]
            at free
          exact .queued entry (newer desc.globalTs list).head? now rfl free.1 free.2
            ⟨_, _, older, later, rfl⟩
      · exact .passed whole
  · exact .passed whole

inductive Context.ReleaseRound (ctx : Context) (after : Context) : Prop
  | stays (same : after = ctx)
  | first (entry : ListEntry) (rest : List ListEntry) (deliver : Bool)
      (isFirst : ctx.egress = entry :: rest) (ready : entry.isReadyToSendUp = true)
      (after : (ctx.lastReleased.all (fun last =>
          compareGlobalTimestampsGte entry.globalTs last.globalTimestamp) = true ∧
            after = { ctx with
              egress := rest, lastReleased := some entry.rxParams
              sending := some { entry := entry, epoch := ctx.epoch, deliver := deliver } }) ∨
        (ctx.lastReleased.all (fun last =>
          compareGlobalTimestampsGte entry.globalTs last.globalTimestamp) = false ∧
            after = { ctx with
              egress := rest
              asserted := ctx.asserted && entry.isParallelRx
              sending := some { entry := entry, epoch := ctx.epoch, deliver := deliver } }))

theorem Context.releaseFirst_cases (cfg : Config) (ctx : Context) (linkBitmap : BitVec 32) :
    ctx.ReleaseRound (ctx.releaseFirst cfg linkBitmap) := by
  unfold releaseFirst
  split
  · exact .stays rfl
  · next first rest isFirst =>
      split
      · exact .stays rfl
      · next ready =>
          dsimp only
          split
          · exact .stays rfl
          · refine .first first rest
              (!deferDelivery cfg first linkBitmap || !first.status.egressListOverflow)
              isFirst (by simpa using ready) ?_
            split
            · next past => exact .inl ⟨past, rfl⟩
            · next late => exact .inr ⟨by simpa using late, rfl⟩

/-- A frame on its way to the ingress list is in the window, its entry is counted, and it
is behind everything on the egress list. -/
structure Arriving.Fits (base : Timestamp) (arriving : Arriving) (egress : List ListEntry) :
    Prop where
  within : Serial.Within base arriving.desc.globalTs
  new : ∀ entry, arriving.new = some entry →
    entry.Counted ∧ entry.rxParams = arriving.desc.rxParams
  behind : arriving.desc.isStale = false → arriving.desc.queuedList ≠ .egress →
    arriving.new.isSome → ∀ entry ∈ egress, entry.age base ≤ Serial.past base arriving.desc.globalTs

/-- The lists of a context are in order one after the other, their entries are counted,
and those of the egress list are ready. -/
structure Ordered (base : Timestamp) (ctx : Context) : Prop where
  inOrder : InOrder base (ctx.egress ++ ctx.ingress)
  counted : ∀ entry ∈ ctx.egress ++ ctx.ingress, entry.Counted
  ready : ∀ entry ∈ ctx.egress, entry.isReadyToSendUp = true
  arriving : ∀ arriving, ctx.arriving = some arriving → arriving.Fits base ctx.egress

namespace Ordered

theorem initial : Ordered base .initial where
  inOrder := .nil
  counted := by simp [Context.initial]
  ready := by simp [Context.initial]
  arriving := by simp [Context.initial]

theorem counted_of_updates (ordered : Ordered base ctx)
    (updates : ListUpdates (ctx.egress ++ ctx.ingress) after) :
    ∀ entry ∈ after, entry.Counted := by
  intro entry mem
  obtain ⟨before, there, updated⟩ := updates.mem mem
  exact updated.counted (ordered.counted before there)

theorem queueToEgress (inOrder : InOrder base (first ++ second))
    (within : Serial.Within base new.globalTs) (there : entry ∈ first)
    (greater : compareGlobalTimestampsGte new.globalTs entry.globalTs = false)
    (updates : ListUpdates (notNewer new.globalTs first ++ new :: newer new.globalTs first) after) :
    InOrder base (after ++ second) := by
  obtain ⟨left, right, across⟩ := InOrder.append_iff.1 inOrder
  have before : new.age base ≤ entry.age base := by
    have past : ¬compareGlobalTimestampsGte new.globalTs entry.globalTs = true := by
      simp [greater]
    rw [compareGlobalTimestampsGte_iff within (left.within entry there)] at past
    exact (Nat.not_le.1 past).le
  refine InOrder.append_iff.2 ⟨(left.insert within).updates updates, right, ?_⟩
  intro a mem b behind
  obtain ⟨old, oldThere, updated⟩ := updates.mem mem
  rw [updated.age]
  rcases List.mem_append.1 oldThere with mem | mem
  · exact across old (List.takeWhile_subset _ mem) b behind
  · rcases List.mem_cons.1 mem with rfl | mem
    · exact before.trans (across entry there b behind)
    · exact across old (List.dropWhile_subset _ mem) b behind

theorem updateEgress (ordered : Ordered base ctx) {received : Received} (allocated : Bool)
    (within : Serial.Within base received.rxParams.globalTimestamp) :
    Ordered base (ctx.updateEgress cfg received allocated) := by
  unfold Context.updateEgress
  dsimp only
  split
  · exact ordered
  have isNew : ∀ entry,
      (if received.descriptor.forHost then some received.descriptor.prepareListEntry
        else none) = some entry →
      entry.Counted ∧ entry.rxParams = received.rxParams := by
    intro entry same
    split at same
    · obtain rfl := Option.some.inj same
      exact ⟨FrameDescriptor.prepareListEntry_counted (WaitCount.balanced_ofPending _), rfl⟩
    · cases same
  generalize (if received.descriptor.forHost then some received.descriptor.prepareListEntry
    else none) = new at isNew ⊢
  split
  · exact ordered
  next updated result =>
  have here : ((received.descriptor.isStaleFrame ctx.lastReleased)).rxParams =
      received.rxParams := FrameDescriptor.isStaleFrame_rxParams
  have updates := updateEgressList_cases result
  clear result
  generalize received.descriptor.isStaleFrame ctx.lastReleased = desc at here updates
  have inWindow : Serial.Within base desc.globalTs := by
    simpa [FrameDescriptor.globalTs, here] using within
  cases updates with
  | stale isStale =>
    refine { ordered with arriving := fun arriving there => ?_ }
    dsimp only at there
    split at there
    · obtain rfl := Option.some.inj there
      refine ⟨inWindow, ?_, ?_⟩
      · simpa [here] using isNew
      · intro fresh
        rw [isStale] at fresh
        cases fresh
    · cases there
  | passed fresh behind =>
    refine { ordered with arriving := fun arriving there => ?_ }
    dsimp only at there
    split at there
    · obtain rfl := Option.some.inj there
      refine ⟨inWindow, by simpa [here] using isNew, ?_⟩
      intro _ _ isSome entry mem
      have left := (InOrder.append_iff.1 ordered.inOrder).1
      have isLast := List.getLast?_eq_some_getLast (List.ne_nil_of_mem mem)
      generalize ctx.egress.getLast (List.ne_nil_of_mem mem) = last at isLast
      have lastThere := List.mem_of_getLast? isLast
      have past := behind isSome last isLast
      rw [compareGlobalTimestampsGte_iff inWindow (left.within last lastThere)] at past
      exact (left.le_getLast isLast mem).trans past
    · cases there
  | queued entry leastGreater after fresh same there greater inserted =>
    obtain ⟨counted, sameParams⟩ := isNew entry same
    have sameTs : (entry.beforeReady leastGreater desc.isParallelRx).globalTs =
        desc.globalTs := by
      simp [ListEntry.globalTs, FrameDescriptor.globalTs, sameParams, here]
    rw [← sameTs] at greater inserted
    have members : ∀ other ∈ after, ∃ before, (before ∈ ctx.egress ∨
        before = entry.beforeReady leastGreater desc.isParallelRx) ∧
        before.Updates other := by
      intro other mem
      obtain ⟨before, thereBefore, updated⟩ := inserted.mem mem
      refine ⟨before, ?_, updated⟩
      rcases List.mem_append.1 thereBefore with mem | mem
      · exact .inl (List.takeWhile_subset _ mem)
      · rcases List.mem_cons.1 mem with rfl | mem
        · exact .inr rfl
        · exact .inl (List.dropWhile_subset _ mem)
    constructor
    · exact queueToEgress ordered.inOrder (sameTs ▸ inWindow) there greater inserted
    · intro other mem
      rcases List.mem_append.1 mem with mem | mem
      · obtain ⟨before, old | rfl, updated⟩ := members other mem
        · exact updated.counted (ordered.counted before (List.mem_append_left _ old))
        · exact updated.counted counted.beforeReady
      · exact ordered.counted other (List.mem_append_right _ mem)
    · intro other mem
      obtain ⟨before, old | rfl, updated⟩ := members other mem
      · exact updated.ready (ordered.ready before old)
      · exact updated.ready ListEntry.beforeReady_ready
    · intro arriving there
      dsimp only at there
      split at there
      · obtain rfl := Option.some.inj there
        refine ⟨inWindow, by simpa [here] using isNew, ?_⟩
        intro _ other
        exact absurd rfl other
      · cases there

theorem updateIngress (ordered : Ordered base ctx) {arriving : Arriving}
    (isArriving : ctx.arriving = some arriving) (now : BitVec 64) :
    Ordered base (ctx.updateIngress arriving now) := by
  have fits := ordered.arriving arriving isArriving
  obtain ⟨left, right, across⟩ := InOrder.append_iff.1 ordered.inOrder
  cases updateIngressList_cases now ctx.ingress arriving.desc arriving.new with
  | passed updates =>
    have whole := ListUpdates.append (ListUpdates.refl ctx.egress) updates
    exact {
      inOrder := ordered.inOrder.updates whole
      counted := ordered.counted_of_updates whole
      ready := ordered.ready
      arriving := by simp [Context.updateIngress] }
  | queued entry ahead later isNew fresh unqueued inserted =>
    obtain ⟨counted, sameParams⟩ := fits.new entry isNew
    have sameTs : (entry.beforeWaiting ahead arriving.desc.isParallelRx later).globalTs =
        arriving.desc.globalTs := by
      simp [ListEntry.globalTs, FrameDescriptor.globalTs, sameParams]
    rw [← sameTs] at inserted
    have put : Inserted (entry.beforeWaiting ahead arriving.desc.isParallelRx later)
        ctx.ingress (updateIngressList now ctx.ingress arriving.desc arriving.new).list :=
      inserted
    have behind := fits.behind fresh unqueued (by simp [isNew])
    constructor
    · refine InOrder.append_iff.2 ⟨left, put.inOrder right (sameTs ▸ fits.within), ?_⟩
      intro a aMem b bMem
      rcases put.mem bMem with rfl | ⟨before, there, updated⟩
      · rw [ListEntry.age, ListEntry.age, sameTs]
        exact behind a aMem
      · rw [updated.age]
        exact across a aMem before there
    · intro other mem
      rcases List.mem_append.1 mem with mem | mem
      · exact ordered.counted other (List.mem_append_left _ mem)
      · rcases put.mem mem with rfl | ⟨before, there, updated⟩
        · exact counted.beforeWaiting
        · exact updated.counted (ordered.counted before (List.mem_append_right _ there))
    · exact ordered.ready
    · simp [Context.updateIngress]

theorem ageout (ordered : Ordered base ctx) (free : ctx.arriving = none) (timeout : Nat)
    (now : BitVec 64) :
    Ordered base { ctx with ingress := ageoutEntriesIngressList timeout now ctx.ingress } := by
  have whole := ListUpdates.append (ListUpdates.refl ctx.egress)
    (ageoutEntries_updates timeout now ctx.ingress)
  exact {
    inOrder := ordered.inOrder.updates whole
    counted := ordered.counted_of_updates whole
    ready := ordered.ready
    arriving := by simp [free] }

theorem moveEntries (ordered : Ordered base ctx) (free : ctx.arriving = none)
    (maxIngress maxEgress : Nat) :
    Ordered base { ctx with
      ingress := (moveEntriesIngressToEgressList maxIngress maxEgress ctx.ingress ctx.egress).1
      egress := (moveEntriesIngressToEgressList maxIngress maxEgress ctx.ingress ctx.egress).2 } := by
  obtain ⟨whole, ready⟩ := moveEntries_updates maxIngress maxEgress ctx.ingress ctx.egress
  refine ⟨ordered.inOrder.updates whole, ordered.counted_of_updates whole, ?_, by simp [free]⟩
  intro entry mem
  rcases ready entry mem with ⟨before, there, updated⟩ | ready
  · exact updated.ready (ordered.ready before there)
  · exact ready

theorem tail (ordered : Ordered base ctx) (isFirst : ctx.egress = entry :: list)
    (egress : next.egress = list) (ingress : next.ingress = ctx.ingress)
    (arriving : next.arriving = ctx.arriving) : Ordered base next := by
  have whole := ordered.inOrder
  have counted := ordered.counted
  rw [isFirst] at whole counted
  constructor
  · rw [egress, ingress]
    exact whole.of_cons
  · rw [egress, ingress]
    exact fun other mem => counted other (List.mem_cons_of_mem _ mem)
  · rw [egress]
    exact fun other mem => ordered.ready other (isFirst ▸ List.mem_cons_of_mem _ mem)
  · intro other there
    rw [arriving] at there
    have fits := ordered.arriving other there
    refine { fits with behind := fun fresh unqueued isNew after mem => ?_ }
    rw [egress] at mem
    exact fits.behind fresh unqueued isNew after (isFirst ▸ List.mem_cons_of_mem _ mem)

theorem step {move : Move} (ordered : Ordered base ctx) (within : move.Within base)
    (stepped : ctx.step cfg move = some next) : Ordered base next := by
  cases move with
  | arrive received allocated =>
    simp only [Context.step, Option.ite_none_left_eq_some, Option.some.injEq] at stepped
    obtain ⟨-, rfl⟩ := stepped
    exact ordered.updateEgress allocated within
  | arriveIngress now =>
    simp only [Context.step, Option.map_eq_some_iff] at stepped
    obtain ⟨arriving, isArriving, rfl⟩ := stepped
    exact ordered.updateIngress isArriving now
  | ageout now =>
    simp only [Context.step, Option.ite_none_left_eq_some, Option.some.injEq] at stepped
    obtain ⟨free, rfl⟩ := stepped
    exact ordered.ageout (by simpa using free) _ now
  | moveEntries =>
    simp only [Context.step, Option.ite_none_left_eq_some, Option.some.injEq] at stepped
    obtain ⟨free, rfl⟩ := stepped
    exact ordered.moveEntries (by simpa using free) _ _
  | release linkBitmap =>
    simp only [Context.step, Option.ite_none_left_eq_some, Option.some.injEq] at stepped
    obtain ⟨-, rfl⟩ := stepped
    cases Context.releaseFirst_cases cfg ctx linkBitmap with
    | stays same => rw [same]; exact ordered
    | first entry rest deliver isFirst ready after =>
      rcases after with ⟨-, same⟩ | ⟨-, same⟩
      · rw [same]; exact ordered.tail isFirst rfl rfl rfl
      · rw [same]; exact ordered.tail isFirst rfl rfl rfl
  | sendUp =>
    simp only [Context.step, Option.map_eq_some_iff] at stepped
    obtain ⟨released, -, rfl⟩ := stepped
    exact { ordered with }
  | inactivity =>
    obtain rfl := Option.some.inj stepped
    exact { ordered with }

theorem of_reachable
    (reached : Reachable (· = .initial) (StepOf (Context.step cfg) fun _ move => move.Within base)
      ctx) : Ordered base ctx := by
  refine reached.invariant ?_ ?_
  · rintro _ rfl
    exact .initial
  · rintro ctx next ordered ⟨move, within, stepped⟩
    exact ordered.step within stepped

end Ordered

structure ListsInvariant (ctx : Context) : Prop where
  ingressSorted : ctx.ingress.Pairwise fun a b =>
    compareGlobalTimestampsGte b.globalTs a.globalTs = true
  egressSorted : ctx.egress.Pairwise fun a b =>
    compareGlobalTimestampsGte b.globalTs a.globalTs = true
  egressNotNewer : ∀ egress ∈ ctx.egress, ∀ ingress ∈ ctx.ingress,
    compareGlobalTimestampsGte ingress.globalTs egress.globalTs = true
  waits : ∀ entry ∈ ctx.egress ++ ctx.ingress,
    entry.status.waitForFrameOnOtherLinks = true ↔ entry.waitCount.totalCount ≠ 0
  total : ∀ entry ∈ ctx.egress ++ ctx.ingress,
    entry.waitCount.totalCount = ∑ link, entry.waitCount.perLinkCount link
  ready : ∀ entry ∈ ctx.egress, entry.isReadyToSendUp = true

/-- The lists keep their invariant in every run whose frames have their timestamps in one
half of the range. -/
theorem listsInvariant_of_reachable (cfg : Config) (base : Timestamp) (ctx : Context)
    (reached : Reachable (· = .initial) (StepOf (Context.step cfg) fun _ move => move.Within base)
      ctx) : ListsInvariant ctx := by
  have ordered := Ordered.of_reachable reached
  have pairs : ctx.egress.Pairwise _ ∧ ctx.ingress.Pairwise _ ∧ _ :=
    List.pairwise_append.1 (ordered.inOrder.sorted.imp_of_mem fun {a b} aMem bMem order =>
      (compareGlobalTimestampsGte_iff (ordered.inOrder.within b bMem)
        (ordered.inOrder.within a aMem)).2 order)
  exact {
    ingressSorted := pairs.2.1
    egressSorted := pairs.1
    egressNotNewer := pairs.2.2
    waits := fun entry mem => (ordered.counted entry mem).waits
    total := fun entry mem => (ordered.counted entry mem).balanced
    ready := ordered.ready }

def crossedContext : Context :=
  (play (Context.step sampleConfig) (fun _ move => move.Within 0) .initial
    crossedMoves).get (by decide +kernel)

theorem crossedContext_listsInvariant :
    crossedContext.ingress.map (·.globalTs) = [50, 100] ∧ ListsInvariant crossedContext := by
  refine ⟨by decide +kernel, listsInvariant_of_reachable sampleConfig 0 _ ?_⟩
  have start : Reachable (· = .initial)
      (StepOf (Context.step sampleConfig) fun _ move => move.Within 0) .initial := .start rfl
  exact play_reachable start _

end VendorModules.Reo
