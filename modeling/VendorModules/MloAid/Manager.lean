import Mathlib
import VendorModules.Lib.Transition

namespace VendorModules.MloAid

open Lib

def WLAN_UMAC_MAX_AID : Nat := 1991

def NO_AID : Nat := 0xffff

def WLAN_AID (assocId : Nat) : Nat := assocId % 0x4000

/-- `WLAN_AID(assoc_id) - 1` as an `unsigned int` bit number. -/
def bitNumber (assocId : Nat) : Nat := (WLAN_AID assocId + (2 ^ 32 - 1)) % 2 ^ 32

/-- `WLAN_AID(assoc_id) - 1` as an `uint16_t`. -/
def assocIdIx (assocId : Nat) : Nat := (WLAN_AID assocId + (2 ^ 16 - 1)) % 2 ^ 16

structure Config (Mld Mgr : Type) (n : Nat) where
  aidMgr : Mld → Fin n → Option Mgr
  startAid : Mld → Nat
  maxAid : Mld → Nat
  vdevStartAid : Mgr → Nat
  vdevMaxAid : Mgr → Nat
  maxAid_le : ∀ mld, maxAid mld ≤ WLAN_UMAC_MAX_AID
  vdevMaxAid_le : ∀ mgr, vdevMaxAid mgr ≤ WLAN_UMAC_MAX_AID

structure Bitmaps (Mld Mgr : Type) where
  aidBitmap : Mld → Nat → Bool
  vdevBitmap : Mgr → Nat → Bool

section Bits

variable {α : Type} [DecidableEq α]

/-- `qdf_set_bit` and `qdf_clear_bit` -/
def writeBit (bitmap : α → Nat → Bool) (owner : α) (nr : Nat) (bit : Bool) :
    α → Nat → Bool :=
  fun owner' nr' => if owner' = owner ∧ nr' = nr then bit else bitmap owner' nr'

theorem writeBit_set {bitmap : α → Nat → Bool} {owner owner' : α} {nr nr' : Nat} :
    writeBit bitmap owner nr true owner' nr' = true ↔
      (owner' = owner ∧ nr' = nr) ∨ bitmap owner' nr' = true := by
  unfold writeBit
  split_ifs with here <;> simp [here]

theorem writeBit_clear {bitmap : α → Nat → Bool} {owner owner' : α} {nr nr' : Nat} :
    writeBit bitmap owner nr false owner' nr' = true ↔
      bitmap owner' nr' = true ∧ ¬ (owner' = owner ∧ nr' = nr) := by
  unfold writeBit
  split_ifs with here <;> simp [here]

end Bits

variable {Mld Mgr : Type} [DecidableEq Mld] [DecidableEq Mgr] {n : Nat}

section Links

variable (cfg : Config Mld Mgr n) (mld : Mld)

def linkBit (bitmap : Mgr → Nat → Bool) (ix : Fin n) (nr : Nat) : Bool :=
  match cfg.aidMgr mld ix with
  | none => false
  | some mgr => bitmap mgr nr

def writeLinks (bitmap : Mgr → Nat → Bool) (nr : Nat) (bit : Bool) :
    List (Fin n) → Mgr → Nat → Bool
  | [] => bitmap
  | ix :: rest =>
    match cfg.aidMgr mld ix with
    | none => writeLinks bitmap nr bit rest
    | some mgr => writeLinks (writeBit bitmap mgr nr bit) nr bit rest

/-- `mlo_peer_set_aid_bit`, whose index is an `uint16_t` -/
def mloPeerSetAidBit (bitmap : Mgr → Nat → Bool) (nr : Nat) : Mgr → Nat → Bool :=
  writeLinks cfg mld bitmap (nr % 2 ^ 16) true (List.finRange n)

/-- The loop of `wlan_mlo_check_aid_free`: the AID is found free at the last link, unless
that one is skipped. -/
def checkAidFreeFrom (bitmap : Mgr → Nat → Bool) (assocIdx : Nat) (skip : Option (Fin n)) :
    List (Fin n) → Bool
  | [] => false
  | ix :: rest =>
    if skip = some ix then checkAidFreeFrom bitmap assocIdx skip rest
    else if linkBit cfg mld bitmap ix assocIdx then false
    else if rest.isEmpty then true
    else checkAidFreeFrom bitmap assocIdx skip rest

def wlanMloCheckAidFree (bitmap : Mgr → Nat → Bool) (assocIdx : Nat) (skip : Option (Fin n)) :
    Bool :=
  checkAidFreeFrom cfg mld bitmap assocIdx skip (List.finRange n)

end Links

def wlanMloAidIdxCheck (startIdx endIdx currIdx : Nat) : Bool :=
  if startIdx < endIdx then decide (currIdx < endIdx) else decide (endIdx ≤ currIdx)

/-- `wlan_mlo_aid_idx_update`, none when the index falls below zero. -/
def wlanMloAidIdxUpdate (startIdx endIdx currIdx : Nat) : Option Nat :=
  if startIdx < endIdx then some (currIdx + 1)
  else if currIdx = 0 then none
  else some (currIdx - 1)

section Allocation

variable (cfg : Config Mld Mgr n) (mld : Mld)

def takeFirst (maps : Bitmaps Mld Mgr) (mgr : Mgr) (firstAid : Nat) :
    Bitmaps Mld Mgr × Nat :=
  if firstAid = 0 then (maps, NO_AID)
  else
    ({ maps with vdevBitmap := writeBit maps.vdevBitmap mgr (firstAid - 1) true }, firstAid)

/-- The loop of `wlan_mlo_alloc_aid` for a multi-link peer, for at most so many rounds. -/
def allocMulti (maps : Bitmaps Mld Mgr) (startIdx endIdx : Nat) :
    Nat → Nat → Bitmaps Mld Mgr × Nat
  | 0, _ => (maps, NO_AID)
  | rounds + 1, assocIdx =>
    if !wlanMloAidIdxCheck startIdx endIdx assocIdx then (maps, NO_AID)
    else if !maps.aidBitmap mld assocIdx &&
        wlanMloCheckAidFree cfg mld maps.vdevBitmap assocIdx none then
      ({ aidBitmap := writeBit maps.aidBitmap mld assocIdx true
         vdevBitmap := mloPeerSetAidBit cfg mld maps.vdevBitmap assocIdx }, assocIdx + 1)
    else
      match wlanMloAidIdxUpdate startIdx endIdx assocIdx with
      | none => (maps, NO_AID)
      | some next => allocMulti maps startIdx endIdx rounds next

def allocSingle (maps : Bitmaps Mld Mgr) (linkIx : Fin n) (mgr : Mgr)
    (startIdx endIdx : Nat) : Nat → Nat → Nat → Bitmaps Mld Mgr × Nat
  | 0, _, firstAid => takeFirst maps mgr firstAid
  | rounds + 1, assocIdx, firstAid =>
    if !wlanMloAidIdxCheck startIdx endIdx assocIdx then takeFirst maps mgr firstAid
    else
      let free := !maps.aidBitmap mld assocIdx && !maps.vdevBitmap mgr assocIdx
      let firstAid := if free && firstAid == 0 then assocIdx + 1 else firstAid
      -- an AID that another link uses already is taken at once
      if free && !wlanMloCheckAidFree cfg mld maps.vdevBitmap assocIdx (some linkIx) then
        ({ maps with vdevBitmap := writeBit maps.vdevBitmap mgr assocIdx true },
          assocIdx + 1)
      else
        match wlanMloAidIdxUpdate startIdx endIdx assocIdx with
        | none => takeFirst maps mgr firstAid
        | some next => allocSingle maps linkIx mgr startIdx endIdx rounds next firstAid

def rounds (startIdx endIdx : Nat) : Nat := startIdx + endIdx + 1

def wlanMloAllocAid (maps : Bitmaps Mld Mgr) (startIdx endIdx : Nat)
    (linkIx : Option (Fin n)) : Bitmaps Mld Mgr × Nat :=
  match linkIx with
  | none => allocMulti cfg mld maps startIdx endIdx (rounds startIdx endIdx) startIdx
  | some ix =>
    match cfg.aidMgr mld ix with
    | none => (maps, NO_AID)
    | some mgr =>
      allocSingle cfg mld maps ix mgr startIdx endIdx (rounds startIdx endIdx) startIdx 0

def tryBuckets (linkIx : Option (Fin n)) :
    List (Nat × Nat) → Bitmaps Mld Mgr → Bitmaps Mld Mgr × Nat
  | [], maps => (maps, NO_AID)
  | (startIdx, endIdx) :: buckets, maps =>
    let taken := wlanMloAllocAid cfg mld maps startIdx endIdx linkIx
    if taken.2 ≠ NO_AID then taken else tryBuckets linkIx buckets taken.1

def AID_NUM_BUCKET : Nat := 3

/-- The order in which `_wlan_mlo_peer_alloc_aid` tries the buckets. -/
def buckets (startAid maxAid : Nat) (t2lmPeer : Bool) : List (Nat × Nat) :=
  let pool1MaxAid := (maxAid - startAid) / AID_NUM_BUCKET
  let aidEnd1 := pool1MaxAid + startAid
  let aidEnd2 := pool1MaxAid + pool1MaxAid + startAid
  if startAid > aidEnd1 ∨ aidEnd1 > aidEnd2 then [(startAid, maxAid)]
  else if t2lmPeer then [(aidEnd1, aidEnd2), (aidEnd2, maxAid), (aidEnd1, startAid)]
  else [(startAid, aidEnd1), (aidEnd2, maxAid), (aidEnd2, aidEnd1)]

def wlanMloPeerAllocAid (maps : Bitmaps Mld Mgr) (t2lmPeer : Bool)
    (linkIx : Option (Fin n)) : Bitmaps Mld Mgr × Nat :=
  if cfg.startAid mld > cfg.maxAid mld then (maps, NO_AID)
  else tryBuckets cfg mld linkIx (buckets (cfg.startAid mld) (cfg.maxAid mld) t2lmPeer) maps

/-- `wlan_mlo_peer_set_aid`, none when it fails. -/
def wlanMloPeerSetAid (maps : Bitmaps Mld Mgr) (linkIx : Option (Fin n)) (assocId : Nat) :
    Option (Bitmaps Mld Mgr) :=
  if maps.aidBitmap mld (bitNumber assocId) then none
  else
    match linkIx with
    | none =>
      if assocId < cfg.startAid mld ∨ assocId ≥ cfg.maxAid mld then none
      else if (List.finRange n).any fun ix =>
          linkBit cfg mld maps.vdevBitmap ix (bitNumber assocId) then none
      else
        some
          { aidBitmap := writeBit maps.aidBitmap mld (bitNumber assocId) true
            vdevBitmap := mloPeerSetAidBit cfg mld maps.vdevBitmap (bitNumber assocId) }
    | some ix =>
      match cfg.aidMgr mld ix with
      | none => none
      | some mgr =>
        if assocId < cfg.vdevStartAid mgr ∨ assocId ≥ cfg.vdevMaxAid mgr then none
        else if maps.vdevBitmap mgr (bitNumber assocId) then none
        else
          some { maps with
            vdevBitmap := writeBit maps.vdevBitmap mgr (bitNumber assocId) true }

def wlanMloPeerFreeAid (maps : Bitmaps Mld Mgr) (linkIx : Option (Fin n)) (assocId : Nat) :
    Bitmaps Mld Mgr :=
  let ix := assocIdIx assocId
  if maps.aidBitmap mld ix then
    { aidBitmap := writeBit maps.aidBitmap mld ix false
      vdevBitmap := writeLinks cfg mld maps.vdevBitmap ix false (List.finRange n) }
  else
    match linkIx.bind (cfg.aidMgr mld) with
    | none => maps
    | some mgr => { maps with vdevBitmap := writeBit maps.vdevBitmap mgr ix false }

end Allocation

structure Holder (Mld : Type) (n : Nat) where
  mld : Mld
  linkIx : Option (Fin n)
  assocId : Nat
  deriving DecidableEq

structure Aids (Mld Mgr : Type) (n : Nat) where
  maps : Bitmaps Mld Mgr
  held : List (Holder Mld n)

inductive Move (Mld : Type) (n : Nat)
  /-- `mlo_peer_allocate_aid`, `mlo_get_aid` or, with a link, `mlme_get_aid` -/
  | alloc (mld : Mld) (linkIx : Option (Fin n)) (t2lmPeer : Bool)
  /-- `mlo_set_aid` or, with a link, `mlme_set_aid` -/
  | set (mld : Mld) (linkIx : Option (Fin n)) (assocId : UInt16)
  /-- `mlo_peer_free_aid`, `mlo_free_aid` or, with a link, `mlme_free_aid` -/
  | free (holder : Holder Mld n)

namespace Aids

variable (cfg : Config Mld Mgr n)

def initial : Aids Mld Mgr n where
  maps := { aidBitmap := fun _ _ => false, vdevBitmap := fun _ _ => false }
  held := []

def step (aids : Aids Mld Mgr n) : Move Mld n → Option (Aids Mld Mgr n)
  | .alloc mld linkIx t2lmPeer =>
    let taken := wlanMloPeerAllocAid cfg mld aids.maps t2lmPeer linkIx
    some
      { maps := taken.1
        held := if taken.2 = NO_AID then aids.held
          else ⟨mld, linkIx, taken.2⟩ :: aids.held }
  | .set mld linkIx assocId =>
    match wlanMloPeerSetAid cfg mld aids.maps linkIx assocId.toNat with
    | none => some aids
    | some maps => some { maps := maps, held := ⟨mld, linkIx, assocId.toNat⟩ :: aids.held }
  | .free holder =>
    some
      { maps := wlanMloPeerFreeAid cfg holder.mld aids.maps holder.linkIx holder.assocId
        held := aids.held.erase holder }

def Allowed (aids : Aids Mld Mgr n) : Move Mld n → Prop
  | .free holder => holder ∈ aids.held
  | _ => True

instance (aids : Aids Mld Mgr n) : DecidablePred aids.Allowed := fun move => by
  cases move <;> simp only [Allowed] <;> infer_instance

end Aids

end VendorModules.MloAid
