import VendorModules.Lib.Occupancy
import VendorModules.MloAid.Manager

namespace VendorModules.MloAid

open Lib

variable {Mld Mgr : Type} {n : Nat}

inductive Cell (Mld Mgr : Type)
  | ml (mld : Mld) (nr : Nat)
  | vdev (mgr : Mgr) (nr : Nat)

def Bitmaps.marked (maps : Bitmaps Mld Mgr) : Cell Mld Mgr → Bool
  | .ml mld nr => maps.aidBitmap mld nr
  | .vdev mgr nr => maps.vdevBitmap mgr nr

def Holder.Reaches (cfg : Config Mld Mgr n) (holder : Holder Mld n) (mgr : Mgr) : Prop :=
  ∃ ix, (holder.linkIx = none ∨ holder.linkIx = some ix) ∧ cfg.aidMgr holder.mld ix = some mgr

def Holder.Takes (cfg : Config Mld Mgr n) (holder : Holder Mld n) : Cell Mld Mgr → Prop
  | .ml mld nr => holder.linkIx = none ∧ holder.mld = mld ∧ nr + 1 = holder.assocId
  | .vdev mgr nr => holder.Reaches cfg mgr ∧ nr + 1 = holder.assocId

def Collide (cfg : Config Mld Mgr n) (holder other : Holder Mld n) : Prop :=
  holder.assocId = other.assocId ∧
    ((holder.mld = other.mld ∧
        (holder.linkIx = none ∨ other.linkIx = none ∨ holder.linkIx = other.linkIx)) ∨
      ∃ mgr, holder.Reaches cfg mgr ∧ other.Reaches cfg mgr)

structure Holder.Sound (cfg : Config Mld Mgr n) (holder : Holder Mld n) : Prop where
  positive : 0 < holder.assocId
  bounded : holder.assocId ≤ WLAN_UMAC_MAX_AID + 1
  managed : ∀ ix, holder.linkIx = some ix → ∃ mgr, cfg.aidMgr holder.mld ix = some mgr

variable {cfg : Config Mld Mgr n}

theorem Holder.Sound.assocIdIx_eq {holder : Holder Mld n} (sound : holder.Sound cfg) :
    assocIdIx holder.assocId + 1 = holder.assocId := by
  have := sound.positive
  have := sound.bounded
  simp only [WLAN_UMAC_MAX_AID] at this
  simp only [assocIdIx, WLAN_AID]
  omega

theorem Holder.Sound.given {holder : Holder Mld n} (sound : holder.Sound cfg) :
    holder.assocId ≠ NO_AID := by
  have := sound.bounded
  simp only [WLAN_UMAC_MAX_AID] at this
  simp only [NO_AID]
  omega

theorem Collide.common {holder other : Holder Mld n} (collide : Collide cfg holder other)
    (sound : holder.Sound cfg) (sound' : other.Sound cfg) :
    ∃ c, holder.Takes cfg c ∧ other.Takes cfg c := by
  obtain ⟨same, shared⟩ := collide
  have number := sound.assocIdIx_eq
  have throughManager : (∃ mgr, holder.Reaches cfg mgr ∧ other.Reaches cfg mgr) →
      ∃ c, holder.Takes cfg c ∧ other.Takes cfg c := by
    rintro ⟨mgr, mine, theirs⟩
    exact ⟨.vdev mgr (assocIdIx holder.assocId), ⟨mine, number⟩, theirs, number.trans same⟩
  rcases shared with ⟨mld, links⟩ | shared
  · cases link : holder.linkIx with
    | none =>
      cases link' : other.linkIx with
      | none =>
        exact ⟨.ml holder.mld (assocIdIx holder.assocId), ⟨link, rfl, number⟩,
          link', mld.symm, number.trans same⟩
      | some ix =>
        obtain ⟨mgr, managed⟩ := sound'.managed ix link'
        exact throughManager ⟨mgr, ⟨ix, .inl link, mld ▸ managed⟩, ix, .inr link', managed⟩
    | some ix =>
      obtain ⟨mgr, managed⟩ := sound.managed ix link
      refine throughManager ⟨mgr, ⟨ix, .inr link, managed⟩, ix, ?_, mld ▸ managed⟩
      rw [link] at links
      rcases links with none | none | equal
      · cases none
      · exact .inl none
      · exact .inr equal.symm
  · exact throughManager shared

section Links

variable {mld : Mld} {bitmap : Mgr → Nat → Bool} {nr : Nat}

theorem checkAidFreeFrom_none {links : List (Fin n)}
    (free : checkAidFreeFrom cfg mld bitmap nr none links = true) :
    ∀ ix ∈ links, linkBit cfg mld bitmap ix nr = false := by
  induction links with
  | nil => simp
  | cons ix links ih =>
    cases bit : linkBit cfg mld bitmap ix nr with
    | true => simp [checkAidFreeFrom, bit] at free
    | false =>
      intro ix' member
      rcases List.mem_cons.mp member with rfl | later
      · exact bit
      · cases links with
        | nil => cases later
        | cons next rest =>
          refine ih ?_ ix' later
          simpa [checkAidFreeFrom, bit] using free

theorem vdevBitmap_of_linkBit {ix : Fin n} {mgr : Mgr}
    (managed : cfg.aidMgr mld ix = some mgr)
    (free : linkBit cfg mld bitmap ix nr = false) : bitmap mgr nr = false := by
  simpa [linkBit, managed] using free

end Links

variable [DecidableEq Mld] [DecidableEq Mgr]

section Links

variable {mld : Mld} {bitmap : Mgr → Nat → Bool} {nr : Nat}

omit [DecidableEq Mld] in
theorem writeLinks_set {links : List (Fin n)} {mgr : Mgr} {nr' : Nat} :
    writeLinks cfg mld bitmap nr true links mgr nr' = true ↔
      ((∃ ix ∈ links, cfg.aidMgr mld ix = some mgr) ∧ nr' = nr) ∨ bitmap mgr nr' = true := by
  induction links generalizing bitmap with
  | nil => simp [writeLinks]
  | cons ix links ih =>
    cases managed : cfg.aidMgr mld ix with
    | none => simp [writeLinks, managed, ih]
    | some mgr' =>
      simp only [writeLinks, managed, ih, writeBit_set, List.mem_cons, exists_eq_or_imp,
        Option.some.injEq, eq_comm (a := mgr')]
      rw [or_and_right, or_assoc, or_left_comm]

omit [DecidableEq Mld] in
theorem writeLinks_clear {links : List (Fin n)} {mgr : Mgr} {nr' : Nat} :
    writeLinks cfg mld bitmap nr false links mgr nr' = true ↔
      bitmap mgr nr' = true ∧ ¬ ((∃ ix ∈ links, cfg.aidMgr mld ix = some mgr) ∧ nr' = nr) := by
  induction links generalizing bitmap with
  | nil => simp [writeLinks]
  | cons ix links ih =>
    cases managed : cfg.aidMgr mld ix with
    | none => simp [writeLinks, managed, ih]
    | some mgr' =>
      simp only [writeLinks, managed, ih, writeBit_clear, List.mem_cons, exists_eq_or_imp,
        Option.some.injEq, eq_comm (a := mgr')]
      rw [or_and_right, not_or, and_assoc]

end Links

structure Grants (cfg : Config Mld Mgr n) (maps maps' : Bitmaps Mld Mgr)
    (holder : Holder Mld n) : Prop where
  sound : holder.Sound cfg
  free : ∀ c, holder.Takes cfg c → maps.marked c = false
  marks : ∀ c, maps'.marked c = true ↔ holder.Takes cfg c ∨ maps.marked c = true

section Grant

variable {maps : Bitmaps Mld Mgr} {mld : Mld} {nr : Nat}

theorem Grants.multi (bounded : nr ≤ WLAN_UMAC_MAX_AID)
    (free : maps.aidBitmap mld nr = false)
    (linksFree : ∀ ix, linkBit cfg mld maps.vdevBitmap ix nr = false) :
    Grants cfg maps
      { aidBitmap := writeBit maps.aidBitmap mld nr true
        vdevBitmap := mloPeerSetAidBit cfg mld maps.vdevBitmap nr }
      ⟨mld, none, nr + 1⟩ where
  sound := ⟨Nat.succ_pos nr, Nat.succ_le_succ bounded, fun _ none => nomatch none⟩
  free c takes := by
    cases c with
    | ml mld' nr' =>
      obtain ⟨-, same, number⟩ := takes
      cases same
      cases number
      exact free
    | vdev mgr nr' =>
      obtain ⟨⟨ix, -, managed⟩, number⟩ := takes
      cases number
      exact vdevBitmap_of_linkBit managed (linksFree ix)
  marks c := by
    have small : nr % 65536 = nr := by
      simp only [WLAN_UMAC_MAX_AID] at bounded
      omega
    cases c with
    | ml mld' nr' =>
      simp [Bitmaps.marked, Holder.Takes, writeBit_set, eq_comm (a := mld')]
    | vdev mgr nr' =>
      simp [Bitmaps.marked, Holder.Takes, Holder.Reaches, mloPeerSetAidBit, writeLinks_set,
        Nat.reducePow, small]

omit [DecidableEq Mld] in
theorem Grants.single {ix : Fin n} {mgr : Mgr} (bounded : nr ≤ WLAN_UMAC_MAX_AID)
    (managed : cfg.aidMgr mld ix = some mgr) (free : maps.vdevBitmap mgr nr = false) :
    Grants cfg maps { maps with vdevBitmap := writeBit maps.vdevBitmap mgr nr true }
      ⟨mld, some ix, nr + 1⟩ where
  sound := by
    refine ⟨Nat.succ_pos nr, Nat.succ_le_succ bounded, fun ix' same => ?_⟩
    cases same
    exact ⟨mgr, managed⟩
  free c takes := by
    cases c with
    | ml mld' nr' => cases takes.1
    | vdev mgr' nr' =>
      obtain ⟨⟨ix', link, managed'⟩, number⟩ := takes
      cases number
      rcases link with none | same
      · cases none
      · cases same
        rw [managed, Option.some.injEq] at managed'
        exact managed' ▸ free
  marks c := by
    cases c with
    | ml mld' nr' => simp [Bitmaps.marked, Holder.Takes]
    | vdev mgr' nr' =>
      simp only [Bitmaps.marked, Holder.Takes, Holder.Reaches, writeBit_set]
      simp [managed, eq_comm (a := mgr')]

inductive Attempt (cfg : Config Mld Mgr n) (maps : Bitmaps Mld Mgr) (mld : Mld)
    (linkIx : Option (Fin n)) : Bitmaps Mld Mgr × Nat → Prop
  | failed : Attempt cfg maps mld linkIx (maps, NO_AID)
  | granted {maps' : Bitmaps Mld Mgr} {assocId : Nat}
      (grants : Grants cfg maps maps' ⟨mld, linkIx, assocId⟩) :
      Attempt cfg maps mld linkIx (maps', assocId)

end Grant

section Scans

variable {maps : Bitmaps Mld Mgr} {mld : Mld} {startIdx endIdx : Nat}

theorem index_bounded {assocIdx next : Nat} (bounded : assocIdx ≤ max startIdx endIdx)
    (checked : wlanMloAidIdxCheck startIdx endIdx assocIdx = true)
    (updated : wlanMloAidIdxUpdate startIdx endIdx assocIdx = some next) :
    next ≤ max startIdx endIdx := by
  unfold wlanMloAidIdxCheck at checked
  unfold wlanMloAidIdxUpdate at updated
  split_ifs at checked updated <;> simp at checked updated <;> omega

variable (range : max startIdx endIdx ≤ WLAN_UMAC_MAX_AID)

include range

theorem allocMulti_attempt (rounds assocIdx : Nat) (bounded : assocIdx ≤ max startIdx endIdx) :
    Attempt cfg maps mld none (allocMulti cfg mld maps startIdx endIdx rounds assocIdx) := by
  induction rounds generalizing assocIdx with
  | zero => exact .failed
  | succ rounds ih =>
    unfold allocMulti
    split_ifs with outside free
    · exact .failed
    · simp only [Bool.and_eq_true, Bool.not_eq_true'] at free
      refine .granted (.multi (bounded.trans range) free.1 fun ix => ?_)
      exact checkAidFreeFrom_none free.2 ix (List.mem_finRange ix)
    · cases updated : wlanMloAidIdxUpdate startIdx endIdx assocIdx with
      | none => exact .failed
      | some next => exact ih next (index_bounded bounded (by simpa using outside) updated)

variable {ix : Fin n} {mgr : Mgr} (managed : cfg.aidMgr mld ix = some mgr)

include managed

omit range [DecidableEq Mld] in
theorem takeFirst_attempt {firstAid : Nat}
    (first : firstAid ≠ 0 → firstAid - 1 ≤ WLAN_UMAC_MAX_AID ∧
      maps.vdevBitmap mgr (firstAid - 1) = false) :
    Attempt cfg maps mld (some ix) (takeFirst maps mgr firstAid) := by
  unfold takeFirst
  split_ifs with none
  · exact .failed
  · obtain ⟨bounded, free⟩ := first none
    have grants := Grants.single bounded managed free
    rw [Nat.sub_add_cancel (Nat.pos_of_ne_zero none)] at grants
    exact .granted grants

omit [DecidableEq Mld] in
theorem allocSingle_attempt (rounds assocIdx firstAid : Nat)
    (bounded : assocIdx ≤ max startIdx endIdx)
    (first : firstAid ≠ 0 → firstAid - 1 ≤ WLAN_UMAC_MAX_AID ∧
      maps.vdevBitmap mgr (firstAid - 1) = false) :
    Attempt cfg maps mld (some ix)
      (allocSingle cfg mld maps ix mgr startIdx endIdx rounds assocIdx firstAid) := by
  induction rounds generalizing assocIdx firstAid with
  | zero => exact takeFirst_attempt managed first
  | succ rounds ih =>
    simp only [allocSingle]
    generalize noted : (if (!maps.aidBitmap mld assocIdx && !maps.vdevBitmap mgr assocIdx) &&
      firstAid == 0 then assocIdx + 1 else firstAid) = firstAid'
    have first' : firstAid' ≠ 0 → firstAid' - 1 ≤ WLAN_UMAC_MAX_AID ∧
        maps.vdevBitmap mgr (firstAid' - 1) = false := by
      subst noted
      split_ifs with here
      · simp only [Bool.and_eq_true, Bool.not_eq_true'] at here
        exact fun _ => ⟨bounded.trans range, here.1.2⟩
      · exact first
    split_ifs with outside used
    · exact takeFirst_attempt managed first
    · simp only [Bool.and_eq_true, Bool.not_eq_true'] at used
      exact .granted (.single (bounded.trans range) managed used.1.2)
    · cases updated : wlanMloAidIdxUpdate startIdx endIdx assocIdx with
      | none => exact takeFirst_attempt managed first'
      | some next =>
        exact ih next firstAid' (index_bounded bounded (by simpa using outside) updated) first'

omit managed in
theorem wlanMloAllocAid_attempt (linkIx : Option (Fin n)) :
    Attempt cfg maps mld linkIx (wlanMloAllocAid cfg mld maps startIdx endIdx linkIx) := by
  unfold wlanMloAllocAid
  cases linkIx with
  | none => exact allocMulti_attempt range _ startIdx (le_max_left _ _)
  | some ix =>
    cases managed : cfg.aidMgr mld ix with
    | none => simpa [managed] using Attempt.failed
    | some mgr =>
      simpa [managed] using
        allocSingle_attempt range managed _ startIdx 0 (le_max_left _ _) (fun none => absurd rfl none)

end Scans

theorem tryBuckets_attempt {maps : Bitmaps Mld Mgr} {mld : Mld} {linkIx : Option (Fin n)}
    {buckets : List (Nat × Nat)}
    (range : ∀ bucket ∈ buckets, max bucket.1 bucket.2 ≤ WLAN_UMAC_MAX_AID) :
    Attempt cfg maps mld linkIx (tryBuckets cfg mld linkIx buckets maps) := by
  induction buckets with
  | nil => exact .failed
  | cons bucket buckets ih =>
    have attempt : Attempt cfg maps mld linkIx
        (wlanMloAllocAid cfg mld maps bucket.1 bucket.2 linkIx) :=
      wlanMloAllocAid_attempt (range bucket List.mem_cons_self) linkIx
    simp only [tryBuckets]
    generalize wlanMloAllocAid cfg mld maps bucket.1 bucket.2 linkIx = taken at attempt
    cases attempt with
    | failed => exact ih fun bucket later => range bucket (List.mem_cons_of_mem _ later)
    | granted grants =>
      rw [if_pos grants.sound.given]
      exact .granted grants

theorem buckets_bounded {startAid maxAid : Nat} {t2lmPeer : Bool} (start : startAid ≤ maxAid)
    (bounded : maxAid ≤ WLAN_UMAC_MAX_AID) :
    ∀ bucket ∈ buckets startAid maxAid t2lmPeer, max bucket.1 bucket.2 ≤ WLAN_UMAC_MAX_AID := by
  have pools : (maxAid - startAid) / AID_NUM_BUCKET + (maxAid - startAid) / AID_NUM_BUCKET +
      startAid ≤ maxAid := by
    simp only [AID_NUM_BUCKET]
    omega
  unfold buckets
  generalize (maxAid - startAid) / AID_NUM_BUCKET = pool at pools ⊢
  intro bucket member
  simp only at member
  split_ifs at member <;> simp only [List.mem_cons, List.not_mem_nil, or_false] at member <;>
    rcases member with rfl | rfl | rfl <;> simp only [Nat.max_le] <;> omega

theorem wlanMloPeerAllocAid_attempt (maps : Bitmaps Mld Mgr) (mld : Mld) (t2lmPeer : Bool)
    (linkIx : Option (Fin n)) :
    Attempt cfg maps mld linkIx (wlanMloPeerAllocAid cfg mld maps t2lmPeer linkIx) := by
  unfold wlanMloPeerAllocAid
  split_ifs with inverted
  · exact .failed
  · exact tryBuckets_attempt (buckets_bounded (Nat.le_of_not_lt inverted) (cfg.maxAid_le mld))

theorem wlanMloPeerSetAid_grants {maps maps' : Bitmaps Mld Mgr} {mld : Mld}
    {linkIx : Option (Fin n)} {assocId : Nat} (positive : 0 < assocId)
    (set : wlanMloPeerSetAid cfg mld maps linkIx assocId = some maps') :
    Grants cfg maps maps' ⟨mld, linkIx, assocId⟩ := by
  have number : assocId ≤ WLAN_UMAC_MAX_AID → bitNumber assocId + 1 = assocId := by
    simp only [WLAN_UMAC_MAX_AID, bitNumber, WLAN_AID]
    omega
  unfold wlanMloPeerSetAid at set
  split at set
  · cases set
  · rename_i free
    rw [Bool.not_eq_true] at free
    cases linkIx with
    | none =>
      simp only at set
      split_ifs at set with outside taken
      cases set
      have bounded : assocId ≤ WLAN_UMAC_MAX_AID := by
        have := cfg.maxAid_le mld
        omega
      have grants : Grants cfg maps _ ⟨mld, none, bitNumber assocId + 1⟩ :=
        Grants.multi (by have := number bounded; omega) free (by simpa using taken)
      rwa [number bounded] at grants
    | some ix =>
      cases managed : cfg.aidMgr mld ix with
      | none => simp [managed] at set
      | some mgr =>
        simp only [managed] at set
        split_ifs at set with outside taken
        cases set
        have bounded : assocId ≤ WLAN_UMAC_MAX_AID := by
          have := cfg.vdevMaxAid_le mgr
          omega
        have grants : Grants cfg maps _ ⟨mld, some ix, bitNumber assocId + 1⟩ :=
          Grants.single (by have := number bounded; omega) managed (by simpa using taken)
        rwa [number bounded] at grants

structure Accounted (cfg : Config Mld Mgr n) (aids : Aids Mld Mgr n) : Prop where
  occupied : Occupied (Holder.Takes cfg) aids.maps.marked aids.held
  sound : ∀ holder ∈ aids.held, holder.Sound cfg

namespace Accounted

variable {aids : Aids Mld Mgr n}

omit [DecidableEq Mld] [DecidableEq Mgr] in
theorem grant (accounted : Accounted cfg aids) {maps' : Bitmaps Mld Mgr}
    {holder : Holder Mld n} (grants : Grants cfg aids.maps maps' holder) :
    Accounted cfg { maps := maps', held := holder :: aids.held } where
  occupied := accounted.occupied.take grants.free grants.marks
  sound := List.forall_mem_cons.mpr ⟨grants.sound, accounted.sound⟩

omit [DecidableEq Mgr] in
theorem aidBitmap_iff (accounted : Accounted cfg aids) {holder : Holder Mld n}
    (member : holder ∈ aids.held) :
    aids.maps.aidBitmap holder.mld (assocIdIx holder.assocId) = true ↔ holder.linkIx = none := by
  have number := (accounted.sound holder member).assocIdIx_eq
  constructor
  · intro set
    obtain ⟨other, member', link, mld, number'⟩ :=
      (accounted.occupied.marked_iff (.ml holder.mld (assocIdIx holder.assocId))).mp set
    by_contra single
    obtain ⟨ix, link'⟩ := Option.ne_none_iff_exists'.mp single
    obtain ⟨mgr, managed⟩ := (accounted.sound holder member).managed ix link'
    -- the multi-link holder would have the bit of the link as well
    have same := accounted.occupied.eq_of_common member member'
      (c := .vdev mgr (assocIdIx holder.assocId)) ⟨⟨ix, .inr link', managed⟩, number⟩
      ⟨⟨ix, .inl link, mld ▸ managed⟩, number'⟩
    rw [same] at single
    exact single link
  · intro link
    exact accounted.occupied.marked_of_mem member
      (c := .ml holder.mld (assocIdIx holder.assocId)) ⟨link, rfl, number⟩

theorem freeAid_marked (accounted : Accounted cfg aids) {holder : Holder Mld n}
    (member : holder ∈ aids.held) (c : Cell Mld Mgr) :
    (wlanMloPeerFreeAid cfg holder.mld aids.maps holder.linkIx holder.assocId).marked c = true ↔
      aids.maps.marked c = true ∧ ¬ holder.Takes cfg c := by
  have sound := accounted.sound holder member
  have number : ∀ nr, nr + 1 = holder.assocId ↔ nr = assocIdIx holder.assocId := by
    have := sound.assocIdIx_eq
    omega
  have kind := accounted.aidBitmap_iff member
  simp only [wlanMloPeerFreeAid]
  cases link : holder.linkIx with
  | none =>
    rw [if_pos (kind.mpr link)]
    cases c with
    | ml mld nr =>
      simp only [Bitmaps.marked, writeBit_clear, Holder.Takes, link, number, true_and,
        eq_comm (a := mld)]
    | vdev mgr nr =>
      simp [Bitmaps.marked, writeLinks_clear, Holder.Takes, Holder.Reaches, link, number]
  | some ix =>
    obtain ⟨mgr, managed⟩ := sound.managed ix link
    rw [if_neg (by rw [kind, link]; simp)]
    simp only [Option.bind_some, managed]
    cases c with
    | ml mld nr => simp [Bitmaps.marked, Holder.Takes, link]
    | vdev mgr' nr =>
      simp [Bitmaps.marked, writeBit_clear, Holder.Takes, Holder.Reaches, link, number,
        managed, eq_comm (a := mgr')]

theorem free (accounted : Accounted cfg aids) {holder : Holder Mld n}
    (member : holder ∈ aids.held) :
    Accounted cfg
      { maps := wlanMloPeerFreeAid cfg holder.mld aids.maps holder.linkIx holder.assocId
        held := aids.held.erase holder } where
  occupied := accounted.occupied.release member (accounted.freeAid_marked member)
  sound other member' := accounted.sound other (List.mem_of_mem_erase member')

end Accounted

def Ordinary (aids : Aids Mld Mgr n) (move : Move Mld n) : Prop :=
  aids.Allowed move ∧ ∀ mld linkIx, move ≠ .set mld linkIx 0

theorem Accounted.step {aids aids' : Aids Mld Mgr n} (accounted : Accounted cfg aids)
    {move : Move Mld n} (ordinary : Ordinary aids move)
    (stepped : aids.step cfg move = some aids') : Accounted cfg aids' := by
  cases move with
  | alloc mld linkIx t2lmPeer =>
    simp only [Aids.step, Option.some.injEq] at stepped
    subst stepped
    have attempt : Attempt cfg aids.maps mld linkIx _ :=
      wlanMloPeerAllocAid_attempt aids.maps mld t2lmPeer linkIx
    generalize wlanMloPeerAllocAid cfg mld aids.maps t2lmPeer linkIx = taken at attempt
    cases attempt with
    | failed => exact accounted
    | granted grants =>
      rw [if_neg grants.sound.given]
      exact accounted.grant grants
  | set mld linkIx assocId =>
    simp only [Aids.step] at stepped
    split at stepped
    · cases stepped
      exact accounted
    · rename_i maps set
      cases stepped
      have positive : 0 < assocId.toNat := by
        apply Nat.pos_of_ne_zero
        intro zero
        have none : assocId = 0 := UInt16.toNat_inj.mp zero
        exact ordinary.2 mld linkIx (none ▸ rfl)
      exact accounted.grant (wlanMloPeerSetAid_grants positive set)
  | free holder =>
    simp only [Aids.step, Option.some.injEq] at stepped
    subst stepped
    exact accounted.free ordinary.1

theorem accounted_of_reachable {aids : Aids Mld Mgr n}
    (reached : Reachable (· = .initial) (StepOf (Aids.step cfg) Ordinary) aids) :
    Accounted cfg aids := by
  induction reached with
  | start initial =>
    subst initial
    exact ⟨.nil fun c => by cases c <;> rfl, fun _ member => nomatch member⟩
  | next _ taken ih =>
    obtain ⟨move, ordinary, stepped⟩ := taken
    exact ih.step ordinary stepped

structure Exclusive (cfg : Config Mld Mgr n) (aids : Aids Mld Mgr n) : Prop where
  apart : aids.held.Pairwise fun holder other => ¬ Collide cfg holder other
  clear : aids.held = [] → ∀ c, aids.maps.marked c = false

omit [DecidableEq Mld] [DecidableEq Mgr] in
theorem Accounted.exclusive {aids : Aids Mld Mgr n} (accounted : Accounted cfg aids) :
    Exclusive cfg aids where
  apart := by
    refine accounted.occupied.apart.imp_of_mem fun member member' apart collide => ?_
    obtain ⟨c, mine, theirs⟩ :=
      collide.common (accounted.sound _ member) (accounted.sound _ member')
    exact apart c mine theirs
  clear none := by
    have occupied := accounted.occupied
    rw [none] at occupied
    exact occupied.clear

/-- In every run in which no AID 0 is assigned. -/
theorem holders_exclusive_of_reachable {aids : Aids Mld Mgr n}
    (reached : Reachable (· = .initial) (StepOf (Aids.step cfg) Ordinary) aids) :
    Exclusive cfg aids :=
  (accounted_of_reachable reached).exclusive

section Sample

abbrev sampleConfig : Config Unit (Fin 2) 2 where
  aidMgr _ ix := some ix
  startAid _ := 0
  maxAid _ := 9
  vdevStartAid _ := 0
  vdevMaxAid _ := 9
  maxAid_le _ := by decide
  vdevMaxAid_le _ := by decide

instance (aids : Aids Unit (Fin 2) 2) : DecidablePred (Ordinary aids) := fun move => by
  cases move with
  | alloc mld linkIx t2lmPeer => exact .isTrue ⟨trivial, by simp⟩
  | set mld linkIx assocId =>
    exact decidable_of_iff (assocId ≠ 0) (by simp [Ordinary, Aids.Allowed])
  | free holder =>
    exact decidable_of_iff (holder ∈ aids.held) (by simp [Ordinary, Aids.Allowed])

/-- A multi-link peer and a single-link peer get AIDs, another is assigned one, and the
first gives its own back. -/
abbrev threePeers : List (Move Unit 2) :=
  [.alloc () none false, .alloc () (some 0) false, .set () (some 1) 5, .free ⟨(), none, 1⟩]

theorem threePeers_exclusive :
    ∃ aids, Reachable (· = .initial) (StepOf (Aids.step sampleConfig) Ordinary) aids ∧
      aids.held = [⟨(), some 1, 5⟩, ⟨(), some 0, 2⟩] ∧ Exclusive sampleConfig aids := by
  have start : Reachable (· = Aids.initial) (StepOf (Aids.step sampleConfig) Ordinary)
      Aids.initial := .start rfl
  have reached := play_reachable start
    (show (play (Aids.step sampleConfig) Ordinary .initial threePeers).isSome by decide)
  exact ⟨_, reached, by decide, holders_exclusive_of_reachable reached⟩

abbrev aidZero : List (Move Unit 2) := [.set () none 0, .free ⟨(), none, 0⟩]

/-- No one holds an AID, and a bit is left set. -/
theorem aidZero_not_exclusive :
    ∃ aids, Reachable (· = .initial) (StepOf (Aids.step sampleConfig) Aids.Allowed) aids ∧
      aids.held = [] ∧ ¬ Exclusive sampleConfig aids := by
  have start : Reachable (· = Aids.initial) (StepOf (Aids.step sampleConfig) Aids.Allowed)
      Aids.initial := .start rfl
  have reached := play_reachable start
    (show (play (Aids.step sampleConfig) Aids.Allowed .initial aidZero).isSome by decide)
  refine ⟨_, reached, by decide, fun exclusive => ?_⟩
  exact absurd (exclusive.clear (by decide) (.ml () (2 ^ 32 - 1))) (by decide)

end Sample

end VendorModules.MloAid
