import Mathlib.Data.List.Forall2
import VendorModules.Reo.Context

namespace VendorModules.Reo

open Lib

/-- `after` is the entry with lower counts or with more reasons to be ready. -/
structure ListEntry.Updates (entry after : ListEntry) : Prop where
  rxParams : after.rxParams = entry.rxParams
  isParallelRx : after.isParallelRx = entry.isParallelRx
  counted : entry.Counted → after.Counted
  ready : entry.isReadyToSendUp = true → after.isReadyToSendUp = true

namespace ListEntry

variable {entry mid after : ListEntry} {new : WaitCount} {link : Link} {delta : BitVec 16}

namespace Updates

theorem refl (entry : ListEntry) : entry.Updates entry := ⟨rfl, rfl, id, id⟩

theorem trans (first : entry.Updates mid) (second : mid.Updates after) :
    entry.Updates after where
  rxParams := second.rxParams.trans first.rxParams
  isParallelRx := second.isParallelRx.trans first.isParallelRx
  counted := second.counted ∘ first.counted
  ready := second.ready ∘ first.ready

theorem globalTs (updates : entry.Updates after) : after.globalTs = entry.globalTs :=
  congrArg ReoParams.globalTimestamp updates.rxParams

theorem mark {status : Status}
    (waits : status.waitForFrameOnOtherLinks = entry.status.waitForFrameOnOtherLinks)
    (ready : entry.isReadyToSendUp = true →
      { entry with status := status }.isReadyToSendUp = true) :
    entry.Updates { entry with status := status } where
  rxParams := rfl
  isParallelRx := rfl
  counted counted := ⟨counted.balanced, by rw [← counted.waits, waits]⟩
  ready := ready

end Updates

theorem settle_ready (ready : entry.isReadyToSendUp = true) :
    entry.settle.isReadyToSendUp = true := by
  unfold settle
  split
  · simp [isReadyToSendUp]
  · exact ready

theorem updates_updateWaitCount : entry.Updates (entry.updateWaitCount new) where
  rxParams := updateWaitCount_rxParams
  isParallelRx := updateWaitCount_isParallelRx
  counted := Counted.updateWaitCount
  ready ready := settle_ready ready

theorem updates_countDown : entry.Updates (entry.countDown link delta) where
  rxParams := countDown_rxParams
  isParallelRx := countDown_isParallelRx
  counted := Counted.countDown
  ready ready := by
    unfold countDown
    split
    · exact settle_ready ready
    · exact ready

theorem updates_ingressListOverflow :
    entry.Updates { entry with status := { entry.status with ingressListOverflow := true } } :=
  .mark rfl fun _ => by simp [isReadyToSendUp]

theorem updates_egressListOverflow :
    entry.Updates { entry with status := { entry.status with egressListOverflow := true } } :=
  .mark rfl fun _ => by simp [isReadyToSendUp]

theorem updates_agedOut :
    entry.Updates { entry with status := { entry.status with agedOut := true } } :=
  .mark rfl fun _ => by simp [isReadyToSendUp]

theorem updates_olderThanLatestAgedOutFrame :
    entry.Updates { entry with
      status := { entry.status with olderThanLatestAgedOutFrame := true } } :=
  .mark rfl fun _ => by simp [isReadyToSendUp]

section Queued

variable {fresh leastGreater : ListEntry} {ahead : Option ListEntry} {isParallelRx : Bool}
  {now : BitVec 64}

@[simp] theorem beforeReady_rxParams :
    (fresh.beforeReady leastGreater isParallelRx).rxParams = fresh.rxParams :=
  updateWaitCount_rxParams

theorem beforeReady_ready :
    (fresh.beforeReady leastGreater isParallelRx).isReadyToSendUp = true := by
  simp [isReadyToSendUp, beforeReady]

theorem Counted.beforeReady (counted : fresh.Counted) :
    (fresh.beforeReady leastGreater isParallelRx).Counted :=
  ⟨counted.updateWaitCount.balanced, counted.updateWaitCount.waits⟩

@[simp] theorem beforeWaiting_rxParams :
    (fresh.beforeWaiting ahead isParallelRx now).rxParams = fresh.rxParams := by
  cases ahead with
  | none => rfl
  | some leastGreater => exact updateWaitCount_rxParams

theorem Counted.beforeWaiting (counted : fresh.Counted) :
    (fresh.beforeWaiting ahead isParallelRx now).Counted := by
  cases ahead with
  | none => exact ⟨counted.balanced, counted.waits⟩
  | some leastGreater => exact ⟨counted.updateWaitCount.balanced, counted.updateWaitCount.waits⟩

end Queued

end ListEntry

abbrev ListUpdates : List ListEntry → List ListEntry → Prop :=
  List.Forall₂ ListEntry.Updates

namespace ListUpdates

variable {list after first first' second second' : List ListEntry}

theorem refl (list : List ListEntry) : ListUpdates list list := by
  induction list with
  | nil => exact .nil
  | cons entry rest ih => exact .cons (.refl entry) ih

theorem map {f : ListEntry → ListEntry} (each : ∀ entry : ListEntry, entry.Updates (f entry)) :
    ListUpdates list (list.map f) := by
  induction list with
  | nil => exact .nil
  | cons entry rest ih => exact .cons (each entry) ih

theorem append (left : ListUpdates first first') (right : ListUpdates second second') :
    ListUpdates (first ++ second) (first' ++ second') := List.rel_append left right

theorem trans (earlier : ListUpdates first list) (later : ListUpdates list after) :
    ListUpdates first after := by
  induction earlier generalizing after with
  | nil => exact later
  | cons one _ ih =>
    cases later with
    | cons next others => exact .cons (one.trans next) (ih others)

theorem rxParams (updates : ListUpdates list after) :
    after.map (·.rxParams) = list.map (·.rxParams) := by
  induction updates with
  | nil => rfl
  | cons one _ ih => rw [List.map_cons, List.map_cons, one.rxParams, ih]

theorem mem (updates : ListUpdates list after) {entry : ListEntry} (mem : entry ∈ after) :
    ∃ before ∈ list, before.Updates entry := by
  induction updates with
  | nil => cases mem
  | cons one _ ih =>
    rcases List.mem_cons.1 mem with rfl | later
    · exact ⟨_, List.mem_cons_self, one⟩
    · obtain ⟨before, there, updated⟩ := ih later
      exact ⟨before, List.mem_cons_of_mem _ there, updated⟩

end ListUpdates

section Operations

variable {list after : List ListEntry} {ts : Timestamp}

theorem notNewer_append_newer (ts : Timestamp) (list : List ListEntry) :
    notNewer ts list ++ newer ts list = list := List.takeWhile_append_dropWhile

theorem handleEgressOverflow_updates (max : Nat) (list : List ListEntry) :
    ListUpdates list (handleEgressOverflow max list) := by
  have parts : ListUpdates
      (list.take (list.length - max) ++ list.drop (list.length - max))
      (handleEgressOverflow max list) :=
    ListUpdates.append (ListUpdates.map fun _ => ListEntry.updates_egressListOverflow)
      (ListUpdates.refl _)
  rwa [List.take_append_drop] at parts

theorem splitReady_updates (overflow : Nat) (list : List ListEntry) :
    ListUpdates list ((splitReady overflow list).1 ++ (splitReady overflow list).2) ∧
      ∀ entry ∈ (splitReady overflow list).1, entry.isReadyToSendUp = true := by
  induction list generalizing overflow with
  | nil => exact ⟨.nil, by simp [splitReady]⟩
  | cons cur rest ih =>
    have marked : cur.Updates (if 0 < overflow then
        { cur with status := { cur.status with ingressListOverflow := true } } else cur) := by
      split
      · exact ListEntry.updates_ingressListOverflow
      · exact .refl cur
    unfold splitReady
    dsimp only
    generalize (if 0 < overflow then
      { cur with status := { cur.status with ingressListOverflow := true } }
      else cur) = now at marked ⊢
    obtain ⟨updates, ready⟩ := ih (overflow - 1)
    split
    · next first =>
        refine ⟨.cons marked updates, fun entry mem => ?_⟩
        rcases List.mem_cons.1 mem with rfl | later
        · exact first
        · exact ready entry later
    · exact ⟨.cons marked (ListUpdates.refl rest), by simp⟩

theorem moveEntries_updates (maxIngress maxEgress : Nat) (ingress egress : List ListEntry) :
    ListUpdates (egress ++ ingress)
        ((moveEntriesIngressToEgressList maxIngress maxEgress ingress egress).2 ++
          (moveEntriesIngressToEgressList maxIngress maxEgress ingress egress).1) ∧
      ∀ entry ∈ (moveEntriesIngressToEgressList maxIngress maxEgress ingress egress).2,
        (∃ before ∈ egress, before.Updates entry) ∨ entry.isReadyToSendUp = true := by
  obtain ⟨updates, ready⟩ := splitReady_updates (ingress.length - maxIngress) ingress
  unfold moveEntriesIngressToEgressList
  generalize splitReady (ingress.length - maxIngress) ingress = split at updates ready
  obtain ⟨moved, rest⟩ := split
  cases moved with
  | nil => exact ⟨ListUpdates.append (ListUpdates.refl egress) updates,
      fun entry mem => .inl ⟨entry, mem, .refl _⟩⟩
  | cons first moved =>
    dsimp only at updates ready ⊢
    have bounded : ListUpdates (egress ++ first :: moved)
        (if maxEgress < (egress ++ first :: moved).length then
          handleEgressOverflow maxEgress (egress ++ first :: moved)
        else egress ++ first :: moved) := by
      split
      · exact handleEgressOverflow_updates _ _
      · exact ListUpdates.refl _
    constructor
    · have joined : ListUpdates (egress ++ ingress) (egress ++ (first :: moved) ++ rest) := by
        rw [List.append_assoc]
        exact ListUpdates.append (ListUpdates.refl egress) updates
      exact joined.trans (ListUpdates.append bounded (ListUpdates.refl rest))
    · intro entry mem
      obtain ⟨before, there, updated⟩ := bounded.mem mem
      rcases List.mem_append.1 there with old | new
      · exact .inl ⟨before, old, updated⟩
      · exact .inr (updated.ready (ready before new))

theorem ageoutEntries_updates (timeout : Nat) (now : BitVec 64) (list : List ListEntry) :
    ListUpdates list (ageoutEntriesIngressList timeout now list) := by
  induction list with
  | nil => exact .nil
  | cons cur rest ih =>
    refine .cons ?_ ih
    have aged : cur.Updates (if cur.timedOut timeout now then
        { cur with status := { cur.status with agedOut := true } } else cur) := by
      split
      · exact ListEntry.updates_agedOut
      · exact .refl cur
    dsimp only
    split
    · exact aged.trans ListEntry.updates_olderThanLatestAgedOutFrame
    · exact aged

end Operations

end VendorModules.Reo
