import VendorModules.MloAid.Buckets

namespace VendorModules.MloAid

/-! The assignment of a given AID, beside the allocation of one. -/

variable {Mld Mgr : Type} [DecidableEq Mgr] {n : Nat}

section Mlme

variable (cfg : Config Mld Mgr n) (maps : Bitmaps Mld Mgr) (mgr : Mgr)

def wlanMlmePeerAllocAid : Bitmaps Mld Mgr × Nat :=
  match (List.range' (cfg.vdevStartAid mgr) (cfg.vdevMaxAid mgr - cfg.vdevStartAid mgr)).find?
      fun i => !maps.vdevBitmap mgr i with
  | none => (maps, NO_AID)
  | some i => ({ maps with vdevBitmap := writeBit maps.vdevBitmap mgr i true }, i + 1)

/-- `wlan_mlme_peer_set_aid`, none when it fails. -/
def wlanMlmePeerSetAid (assocId : Nat) : Option (Bitmaps Mld Mgr) :=
  if assocId < cfg.vdevStartAid mgr ∨ assocId ≥ cfg.vdevMaxAid mgr then none
  else if maps.vdevBitmap mgr (bitNumber assocId) then none
  else
    some { maps with vdevBitmap := writeBit maps.vdevBitmap mgr (bitNumber assocId) true }

end Mlme

/-- The bits that `wlan_mlo_peer_set_aid` looks at or sets: it looks at one before it compares the
AID with the range. -/
def setAidBits (assocId : Nat) : List Nat := [bitNumber assocId]

/-- The bits that `wlan_mlme_peer_set_aid` looks at or sets. -/
def mlmeSetAidBits (cfg : Config Mld Mgr n) (mgr : Mgr) (assocId : Nat) : List Nat :=
  if assocId < cfg.vdevStartAid mgr ∨ assocId ≥ cfg.vdevMaxAid mgr then []
  else [bitNumber assocId]

structure Agrees (bits : List Nat) (succeeds could : Prop) : Prop where
  inside : ∀ nr ∈ bits, nr < WLAN_UMAC_MAX_AID
  exact : succeeds ↔ could

def CouldAllocate (cfg : Config Mld Mgr n) (mld : Mld) (maps : Bitmaps Mld Mgr)
    (linkIx : Option (Fin n)) (assocId : Nat) : Prop :=
  cfg.startAid mld < assocId ∧ assocId ≤ cfg.maxAid mld ∧
    isFree cfg mld maps linkIx (assocId - 1) = true

def MlmeCouldAllocate (cfg : Config Mld Mgr n) (maps : Bitmaps Mld Mgr) (mgr : Mgr)
    (assocId : Nat) : Prop :=
  cfg.vdevStartAid mgr < assocId ∧ assocId ≤ cfg.vdevMaxAid mgr ∧
    maps.vdevBitmap mgr (assocId - 1) = false

/-- The range that `wlan_mlo_peer_set_aid` compares the AID with, without its end. -/
def settable (cfg : Config Mld Mgr n) (mld : Mld) (linkIx : Option (Fin n)) : Nat × Nat :=
  match linkIx with
  | none => (cfg.startAid mld, cfg.maxAid mld)
  | some ix =>
    match cfg.aidMgr mld ix with
    | none => (0, 0)
    | some mgr => (cfg.vdevStartAid mgr, cfg.vdevMaxAid mgr)

section Bits

theorem bitNumber_lt_iff {assocId : Nat} :
    bitNumber assocId < WLAN_UMAC_MAX_AID ↔
      0 < WLAN_AID assocId ∧ WLAN_AID assocId ≤ WLAN_UMAC_MAX_AID := by
  simp only [bitNumber, WLAN_AID, WLAN_UMAC_MAX_AID]
  omega

theorem bitNumber_eq {assocId : Nat} (positive : 0 < assocId)
    (small : assocId < WLAN_UMAC_MAX_AID) : bitNumber assocId = assocId - 1 := by
  simp only [WLAN_UMAC_MAX_AID] at small
  simp only [bitNumber, WLAN_AID]
  omega

end Bits

section Assign

variable {cfg : Config Mld Mgr n} {mld : Mld} {maps : Bitmaps Mld Mgr} {mgr : Mgr}

omit [DecidableEq Mgr] in
theorem bitNumber_of_accepted {assocId last : Nat} (bound : last ≤ WLAN_UMAC_MAX_AID)
    (inside : bitNumber assocId < WLAN_UMAC_MAX_AID) (high : assocId < last) :
    bitNumber assocId = assocId - 1 := by
  obtain ⟨positive, -⟩ := bitNumber_lt_iff.1 inside
  refine bitNumber_eq (Nat.pos_of_ne_zero fun zero => ?_) (Nat.lt_of_lt_of_le high bound)
  rw [zero] at positive
  cases positive

theorem wlanMloPeerSetAid_isSome_iff [DecidableEq Mld] {linkIx : Option (Fin n)} {assocId : Nat}
    (inside : bitNumber assocId < WLAN_UMAC_MAX_AID) :
    (wlanMloPeerSetAid cfg mld maps linkIx assocId).isSome = true ↔
      ((settable cfg mld linkIx).1 ≤ assocId ∧ assocId < (settable cfg mld linkIx).2) ∧
        isFree cfg mld maps linkIx (assocId - 1) = true := by
  unfold wlanMloPeerSetAid settable
  cases linkIx with
  | none =>
    dsimp only
    by_cases range : cfg.startAid mld ≤ assocId ∧ assocId < cfg.maxAid mld
    · have same := bitNumber_of_accepted (cfg.maxAid_le mld) inside range.2
      have kept : ¬(assocId < cfg.startAid mld ∨ assocId ≥ cfg.maxAid mld) := by omega
      rw [if_neg kept, same, and_iff_right range]
      cases bit : maps.aidBitmap mld (assocId - 1) <;> simp [isFree, bit]
    · have out : assocId < cfg.startAid mld ∨ assocId ≥ cfg.maxAid mld := by omega
      rw [if_pos out]
      exact iff_of_false (by simp) fun both => range both.1
  | some ix =>
    cases managed : cfg.aidMgr mld ix with
    | none => simp [managed]
    | some mgr =>
      simp only [managed]
      by_cases range : cfg.vdevStartAid mgr ≤ assocId ∧ assocId < cfg.vdevMaxAid mgr
      · have same := bitNumber_of_accepted (cfg.vdevMaxAid_le mgr) inside range.2
        have kept : ¬(assocId < cfg.vdevStartAid mgr ∨ assocId ≥ cfg.vdevMaxAid mgr) := by
          omega
        rw [if_neg kept, same, and_iff_right range]
        cases bit : maps.aidBitmap mld (assocId - 1) <;> simp [isFree, managed, bit]
      · have out : assocId < cfg.vdevStartAid mgr ∨ assocId ≥ cfg.vdevMaxAid mgr := by omega
        rw [if_pos out]
        exact iff_of_false (by simp) fun both => range both.1

theorem wlanMloPeerSetAid_agrees_iff [DecidableEq Mld] (linkIx : Option (Fin n))
    (assocId : Nat) :
    Agrees (setAidBits assocId) (wlanMloPeerSetAid cfg mld maps linkIx assocId).isSome
        (CouldAllocate cfg mld maps linkIx assocId) ↔
      (0 < WLAN_AID assocId ∧ WLAN_AID assocId ≤ WLAN_UMAC_MAX_AID) ∧
        (isFree cfg mld maps linkIx (assocId - 1) = true →
          ((settable cfg mld linkIx).1 ≤ assocId ∧ assocId < (settable cfg mld linkIx).2 ↔
            cfg.startAid mld < assocId ∧ assocId ≤ cfg.maxAid mld)) := by
  rw [← bitNumber_lt_iff]
  constructor
  · intro agrees
    have inside := agrees.inside _ (List.mem_singleton.2 rfl)
    refine ⟨inside, fun free => ?_⟩
    have exact' := agrees.exact
    rw [wlanMloPeerSetAid_isSome_iff inside, CouldAllocate, free] at exact'
    simpa [and_assoc] using exact'
  · rintro ⟨inside, ranges⟩
    refine ⟨fun nr mem => List.mem_singleton.1 mem ▸ inside, ?_⟩
    rw [wlanMloPeerSetAid_isSome_iff inside, CouldAllocate]
    constructor
    · rintro ⟨range, free⟩
      obtain ⟨low, high⟩ := (ranges free).1 range
      exact ⟨low, high, free⟩
    · rintro ⟨low, high, free⟩
      exact ⟨(ranges free).2 ⟨low, high⟩, free⟩

theorem wlanMlmePeerSetAid_agrees_iff (assocId : Nat) :
    Agrees (mlmeSetAidBits cfg mgr assocId) (wlanMlmePeerSetAid cfg maps mgr assocId).isSome
        (MlmeCouldAllocate cfg maps mgr assocId) ↔
      (assocId = 0 → 0 < cfg.vdevStartAid mgr ∨ cfg.vdevMaxAid mgr = 0) ∧
        (maps.vdevBitmap mgr (assocId - 1) = false →
          cfg.vdevStartAid mgr < cfg.vdevMaxAid mgr →
            assocId ≠ cfg.vdevStartAid mgr ∧ assocId ≠ cfg.vdevMaxAid mgr) := by
  have bound := cfg.vdevMaxAid_le mgr
  unfold mlmeSetAidBits wlanMlmePeerSetAid MlmeCouldAllocate
  by_cases range : cfg.vdevStartAid mgr ≤ assocId ∧ assocId < cfg.vdevMaxAid mgr
  · have kept : ¬(assocId < cfg.vdevStartAid mgr ∨ assocId ≥ cfg.vdevMaxAid mgr) := by omega
    rw [if_neg kept, if_neg kept]
    by_cases zero : assocId = 0
    · refine iff_of_false (fun agrees => ?_) fun both => ?_
      · have inside := agrees.inside _ (List.mem_singleton.2 rfl)
        rw [bitNumber_lt_iff, zero] at inside
        exact absurd inside.1 (by decide)
      · have := both.1 zero
        omega
    · have same := bitNumber_eq (Nat.pos_of_ne_zero zero) (by omega)
      rw [same]
      cases maps.vdevBitmap mgr (assocId - 1) with
      | true =>
        refine iff_of_true ⟨fun nr mem => ?_, by simp⟩ ⟨fun is => absurd is zero, by simp⟩
        rw [List.mem_singleton.1 mem]
        omega
      | false =>
        constructor
        · intro agrees
          refine ⟨fun is => absurd is zero, fun _ _ => ?_⟩
          have could := agrees.exact.1 (by simp)
          omega
        · rintro ⟨-, ends⟩
          refine ⟨fun nr mem => ?_, ?_⟩
          · rw [List.mem_singleton.1 mem]
            omega
          · have := ends rfl (by omega)
            refine iff_of_true (by simp) ⟨by omega, by omega, rfl⟩
  · have out : assocId < cfg.vdevStartAid mgr ∨ assocId ≥ cfg.vdevMaxAid mgr := by omega
    rw [if_pos out, if_pos out]
    constructor
    · intro agrees
      refine ⟨fun zero => by omega, fun free below => ?_⟩
      have could := mt agrees.exact.2 (by simp)
      have : ¬(cfg.vdevStartAid mgr < assocId ∧ assocId ≤ cfg.vdevMaxAid mgr) :=
        fun inside => could ⟨inside.1, inside.2, free⟩
      omega
    · rintro ⟨-, ends⟩
      refine ⟨by simp, iff_of_false (by simp) ?_⟩
      rintro ⟨low, high, free⟩
      have := ends free (by omega)
      omega

/-- An assignment agrees with the allocation exactly if the AID's bit is in the bitmap and the
AID, if it is free, is in both ranges or in neither. -/
theorem setAid_agrees_iff [DecidableEq Mld] (cfg : Config Mld Mgr n) (maps : Bitmaps Mld Mgr)
    (assocId : UInt16) :
    (∀ mld linkIx,
      Agrees (setAidBits assocId.toNat)
          (wlanMloPeerSetAid cfg mld maps linkIx assocId.toNat).isSome
          (CouldAllocate cfg mld maps linkIx assocId.toNat) ↔
        (0 < WLAN_AID assocId.toNat ∧ WLAN_AID assocId.toNat ≤ WLAN_UMAC_MAX_AID) ∧
          (isFree cfg mld maps linkIx (assocId.toNat - 1) = true →
            ((settable cfg mld linkIx).1 ≤ assocId.toNat ∧
                assocId.toNat < (settable cfg mld linkIx).2 ↔
              cfg.startAid mld < assocId.toNat ∧ assocId.toNat ≤ cfg.maxAid mld))) ∧
    ∀ mgr,
      Agrees (mlmeSetAidBits cfg mgr assocId.toNat)
          (wlanMlmePeerSetAid cfg maps mgr assocId.toNat).isSome
          (MlmeCouldAllocate cfg maps mgr assocId.toNat) ↔
        (assocId.toNat = 0 → 0 < cfg.vdevStartAid mgr ∨ cfg.vdevMaxAid mgr = 0) ∧
          (maps.vdevBitmap mgr (assocId.toNat - 1) = false →
            cfg.vdevStartAid mgr < cfg.vdevMaxAid mgr →
              assocId.toNat ≠ cfg.vdevStartAid mgr ∧ assocId.toNat ≠ cfg.vdevMaxAid mgr) :=
  ⟨fun _ linkIx => wlanMloPeerSetAid_agrees_iff linkIx _,
    fun _ => wlanMlmePeerSetAid_agrees_iff _⟩

end Assign

section Allocated

variable [DecidableEq Mld] {cfg : Config Mld Mgr (n + 1)} {mld : Mld} {maps : Bitmaps Mld Mgr}

theorem couldAllocate_of_alloc {linkIx : Option (Fin (n + 1))} {t2lmPeer : Bool}
    (below : cfg.startAid mld < cfg.maxAid mld)
    (given : (wlanMloPeerAllocAid cfg mld maps t2lmPeer linkIx).2 ≠ NO_AID) :
    CouldAllocate cfg mld maps linkIx (wlanMloPeerAllocAid cfg mld maps t2lmPeer linkIx).2 := by
  rw [wlanMloPeerAllocAid_eq below] at given ⊢
  cases found : (buckets (cfg.startAid mld) (cfg.maxAid mld) t2lmPeer).findSome?
      (takenFrom cfg mld maps linkIx) with
  | none =>
    rw [found] at given
    exact absurd rfl given
  | some idx =>
    obtain ⟨bucket, mem, taken⟩ := List.exists_of_findSome?_eq_some found
    obtain ⟨there, free⟩ := mem_of_takenFrom taken
    have inside := mem_range_of_mem_buckets below mem there
    exact ⟨Nat.lt_succ_of_le inside.1, inside.2, free⟩

omit [DecidableEq Mld] in
theorem mlmeCouldAllocate_of_alloc {mgr : Mgr}
    (given : (wlanMlmePeerAllocAid cfg maps mgr).2 ≠ NO_AID) :
    MlmeCouldAllocate cfg maps mgr (wlanMlmePeerAllocAid cfg maps mgr).2 := by
  unfold wlanMlmePeerAllocAid at given ⊢
  split at given
  · exact absurd rfl given
  · next i found =>
      have inside := List.mem_range'_1.1 (List.mem_of_find?_eq_some found)
      have free := List.find?_some found
      exact ⟨by dsimp only; omega, by dsimp only; omega, by simpa using free⟩

end Allocated

def noneInUse : Bitmaps Unit (Fin 2) where
  aidBitmap _ _ := false
  vdevBitmap _ _ := false

/-- The last AID of the range can be allocated, and cannot be set; AID 0 has no bit. -/
theorem lastAid_not_agrees :
    CouldAllocate sampleConfig () noneInUse none 9 ∧
      (wlanMloPeerSetAid sampleConfig () noneInUse none 9).isSome = false ∧
      ¬Agrees (setAidBits 9) (wlanMloPeerSetAid sampleConfig () noneInUse none 9).isSome
        (CouldAllocate sampleConfig () noneInUse none 9) ∧
      setAidBits 0 = [2 ^ 32 - 1] := by
  have could : CouldAllocate sampleConfig () noneInUse none 9 :=
    ⟨by decide, by decide, by decide⟩
  have fails : (wlanMloPeerSetAid sampleConfig () noneInUse none 9).isSome = false := by decide
  refine ⟨could, fails, fun agrees => ?_, by decide⟩
  have succeeds := agrees.exact.2 could
  rw [fails] at succeeds
  cases succeeds

end VendorModules.MloAid
