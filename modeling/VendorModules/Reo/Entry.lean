import Mathlib.Algebra.BigOperators.Fin
import Mathlib.Algebra.Order.BigOperators.Group.Finset
import VendorModules.Lib.Serial

namespace VendorModules.Reo

open Lib

abbrev maxMloLinks : Nat := 6

theorem maxMloLinks_neZero : NeZero maxMloLinks := ⟨by decide⟩

abbrev Link := Fin maxMloLinks

abbrev Timestamp := BitVec 32

/-- `mgmt_rx_reo_compare_global_timestamps_gte` -/
def compareGlobalTimestampsGte (ts1 ts2 : Timestamp) : Bool :=
  (ts1 - ts2).toNat ≤ 0x80000000

/-- `struct mgmt_rx_reo_params`, as the WMI extraction fills it in: the frame starts at
its global timestamp and ends after its duration. -/
structure ReoParams where
  linkId : Link
  mgmtPktCtr : BitVec 16
  globalTimestamp : Timestamp
  durationUs : BitVec 32
  deriving DecidableEq, Repr

namespace ReoParams

def startTimestamp (params : ReoParams) : Timestamp := params.globalTimestamp

def endTimestamp (params : ReoParams) : Timestamp :=
  params.startTimestamp + params.durationUs

end ReoParams

/-- `struct mgmt_rx_reo_wait_count` -/
structure WaitCount where
  perLinkCount : Link → Nat
  totalCount : Nat
  deriving DecidableEq

namespace WaitCount

def zero : WaitCount := { perLinkCount := fun _ => 0, totalCount := 0 }

/-- `wait_count->per_link_count[link] = frames_pending` and the addition to the total. -/
def addPending (count : WaitCount) (link : Link) (framesPending : Nat) : WaitCount where
  perLinkCount := Function.update count.perLinkCount link framesPending
  totalCount := count.totalCount + framesPending

def ofPending (framesPending : Link → Nat) : WaitCount :=
  (List.finRange maxMloLinks).foldl
    (fun count link => count.addPending link (framesPending link)) zero

def lower (count : WaitCount) (link : Link) (value : Nat) : WaitCount where
  perLinkCount := Function.update count.perLinkCount link value
  totalCount := count.totalCount - (count.perLinkCount link - value)

/-- A round of the loop of `mgmt_rx_reo_update_wait_count`. -/
def updateLink (new old : WaitCount) (link : Link) : WaitCount :=
  if old.perLinkCount link ≠ 0 then
    old.lower link (min (old.perLinkCount link) (new.perLinkCount link))
  else old

/-- `mgmt_rx_reo_update_wait_count` -/
def update (old new : WaitCount) : WaitCount :=
  (List.finRange maxMloLinks).foldl (updateLink new) old

/-- What a frame of `link` whose counter is `delta` past the last one takes off. -/
def countDown (count : WaitCount) (link : Link) (delta : BitVec 16) : WaitCount :=
  if count.perLinkCount link ≠ 0 then
    count.lower link (count.perLinkCount link - delta.toNat)
  else count

def Balanced (count : WaitCount) : Prop := count.totalCount = ∑ link, count.perLinkCount link

variable {count old new : WaitCount} {link other : Link} {value : Nat}

theorem sum_update (f : Link → Nat) (link : Link) (value : Nat) :
    (∑ other, Function.update f link value other) + f link = (∑ other, f other) + value := by
  have all : link ∈ (Finset.univ : Finset Link) := Finset.mem_univ link
  have before := Finset.add_sum_erase Finset.univ f all
  have after := Finset.sum_update_of_mem all f value
  rw [Finset.sdiff_singleton_eq_erase] at after
  omega

theorem perLinkCount_le_total (balanced : count.Balanced) (link : Link) :
    count.perLinkCount link ≤ count.totalCount := by
  rw [balanced]
  exact Finset.single_le_sum (f := count.perLinkCount) (fun _ _ => Nat.zero_le _)
    (Finset.mem_univ link)

theorem Balanced.lower (balanced : count.Balanced) (less : value ≤ count.perLinkCount link) :
    (count.lower link value).Balanced := by
  have changed := sum_update count.perLinkCount link value
  have within := perLinkCount_le_total balanced link
  unfold Balanced at balanced ⊢
  change count.totalCount - (count.perLinkCount link - value) = _
  change _ = ∑ other, Function.update count.perLinkCount link value other
  omega

theorem Balanced.updateLink (balanced : old.Balanced) :
    (WaitCount.updateLink new old link).Balanced := by
  unfold WaitCount.updateLink
  split
  · exact balanced.lower (Nat.min_le_left _ _)
  · exact balanced

theorem Balanced.update (balanced : old.Balanced) : (old.update new).Balanced := by
  unfold WaitCount.update
  generalize List.finRange maxMloLinks = links
  induction links generalizing old with
  | nil => exact balanced
  | cons link links ih => exact ih balanced.updateLink

theorem Balanced.countDown {delta : BitVec 16} (balanced : count.Balanced) :
    (count.countDown link delta).Balanced := by
  unfold WaitCount.countDown
  split
  · exact balanced.lower (Nat.sub_le _ _)
  · exact balanced

theorem lower_total (count : WaitCount) (link : Link) (value : Nat) :
    (count.lower link value).totalCount ≤ count.totalCount := Nat.sub_le _ _

theorem update_total (old new : WaitCount) :
    (old.update new).totalCount ≤ old.totalCount := by
  unfold WaitCount.update
  generalize List.finRange maxMloLinks = links
  induction links generalizing old with
  | nil => exact Nat.le_refl _
  | cons link links ih =>
    refine (ih (updateLink new old link)).trans ?_
    unfold updateLink
    split
    · exact lower_total old link _
    · exact Nat.le_refl _

theorem countDown_total {delta : BitVec 16} (count : WaitCount) :
    (count.countDown link delta).totalCount ≤ count.totalCount := by
  unfold WaitCount.countDown
  split
  · exact lower_total count link _
  · exact Nat.le_refl _

theorem foldl_addPending (framesPending : Link → Nat) (links : List Link)
    (once : links.Nodup) (count : WaitCount) (balanced : count.Balanced)
    (unset : ∀ link ∈ links, count.perLinkCount link = 0) :
    (links.foldl (fun count link => count.addPending link (framesPending link))
        count).Balanced ∧
      ∀ link, (links.foldl (fun count link => count.addPending link (framesPending link))
        count).perLinkCount link =
          if link ∈ links then framesPending link else count.perLinkCount link := by
  induction links generalizing count with
  | nil => exact ⟨balanced, fun link => by simp⟩
  | cons first links ih =>
    rw [List.nodup_cons] at once
    have added : (count.addPending first (framesPending first)).Balanced := by
      have changed := sum_update count.perLinkCount first (framesPending first)
      have empty := unset first List.mem_cons_self
      unfold Balanced at balanced ⊢
      change count.totalCount + framesPending first =
        ∑ other, Function.update count.perLinkCount first (framesPending first) other
      omega
    have rest := ih once.2 _ added (by
      intro link mem
      have apart : link ≠ first := fun same => once.1 (same ▸ mem)
      rw [show (count.addPending first (framesPending first)).perLinkCount link =
        count.perLinkCount link from Function.update_of_ne apart _ _]
      exact unset link (List.mem_cons_of_mem _ mem))
    refine ⟨rest.1, fun link => ?_⟩
    rw [List.foldl_cons, rest.2 link]
    by_cases later : link ∈ links
    · simp [later]
    · by_cases same : link = first
      · subst same; simp [later, addPending]
      · simp [later, same, addPending]

theorem balanced_ofPending (framesPending : Link → Nat) : (ofPending framesPending).Balanced :=
  (foldl_addPending framesPending _ (List.nodup_finRange _) zero (by simp [Balanced, zero])
    (fun _ _ => rfl)).1

-- The loops over the links are only ever used through the lemmas above.
attribute [irreducible] update ofPending

end WaitCount

structure Status where
  waitForFrameOnOtherLinks : Bool := false
  agedOut : Bool := false
  olderThanLatestAgedOutFrame : Bool := false
  ingressListOverflow : Bool := false
  olderThanReadyToDeliverFrames : Bool := false
  egressListOverflow : Bool := false
  deriving DecidableEq, Repr

/-- `struct mgmt_rx_reo_list_entry` -/
structure ListEntry where
  rxParams : ReoParams
  waitCount : WaitCount
  status : Status := {}
  ingressListInsertionTs : BitVec 64 := 0
  isParallelRx : Bool := false
  deriving DecidableEq

namespace ListEntry

def globalTs (entry : ListEntry) : Timestamp := entry.rxParams.globalTimestamp

/-- `mgmt_rx_reo_is_entry_ready_to_send_up` -/
def isReadyToSendUp (entry : ListEntry) : Bool :=
  entry.status.ingressListOverflow || entry.status.egressListOverflow ||
    !entry.status.waitForFrameOnOtherLinks || entry.status.agedOut ||
    entry.status.olderThanLatestAgedOutFrame || entry.status.olderThanReadyToDeliverFrames

def settle (entry : ListEntry) : ListEntry :=
  if entry.waitCount.totalCount = 0 then
    { entry with status := { entry.status with waitForFrameOnOtherLinks := false } }
  else entry

def updateWaitCount (entry : ListEntry) (new : WaitCount) : ListEntry :=
  { entry with waitCount := entry.waitCount.update new }.settle

/-- Counts a frame of `link` that was on air before the entry. -/
def countDown (entry : ListEntry) (link : Link) (delta : BitVec 16) : ListEntry :=
  if entry.waitCount.perLinkCount link ≠ 0 then
    { entry with waitCount := entry.waitCount.countDown link delta }.settle
  else entry

structure Counted (entry : ListEntry) : Prop where
  balanced : entry.waitCount.Balanced
  waits : entry.status.waitForFrameOnOtherLinks = true ↔ entry.waitCount.totalCount ≠ 0

variable {entry : ListEntry} {new : WaitCount} {link : Link} {delta : BitVec 16}

@[simp] theorem settle_rxParams : entry.settle.rxParams = entry.rxParams := by
  unfold settle; split <;> rfl

@[simp] theorem settle_waitCount : entry.settle.waitCount = entry.waitCount := by
  unfold settle; split <;> rfl

@[simp] theorem settle_isParallelRx : entry.settle.isParallelRx = entry.isParallelRx := by
  unfold settle; split <;> rfl

@[simp] theorem updateWaitCount_rxParams :
    (entry.updateWaitCount new).rxParams = entry.rxParams := settle_rxParams

@[simp] theorem updateWaitCount_waitCount :
    (entry.updateWaitCount new).waitCount = entry.waitCount.update new := settle_waitCount

@[simp] theorem updateWaitCount_isParallelRx :
    (entry.updateWaitCount new).isParallelRx = entry.isParallelRx := settle_isParallelRx

@[simp] theorem countDown_rxParams : (entry.countDown link delta).rxParams = entry.rxParams := by
  unfold countDown; split <;> simp

@[simp] theorem countDown_isParallelRx :
    (entry.countDown link delta).isParallelRx = entry.isParallelRx := by
  unfold countDown; split <;> simp

theorem Counted.settle {count : WaitCount} (counted : entry.Counted)
    (balanced : count.Balanced) (less : count.totalCount ≤ entry.waitCount.totalCount) :
    ({ entry with waitCount := count }.settle).Counted := by
  have waits := counted.waits
  unfold ListEntry.settle
  split
  · next none => exact ⟨balanced, by simpa using none⟩
  · next some =>
      refine ⟨balanced, ?_⟩
      change _ ↔ count.totalCount ≠ 0
      have some : count.totalCount ≠ 0 := some
      simp only [ne_eq, some, not_false_eq_true, iff_true]
      exact waits.2 (by omega)

theorem Counted.updateWaitCount (counted : entry.Counted) :
    (entry.updateWaitCount new).Counted :=
  counted.settle counted.balanced.update (WaitCount.update_total _ _)

theorem Counted.countDown (counted : entry.Counted) : (entry.countDown link delta).Counted := by
  unfold ListEntry.countDown
  split
  · exact counted.settle counted.balanced.countDown (WaitCount.countDown_total _)
  · exact counted

end ListEntry

end VendorModules.Reo
