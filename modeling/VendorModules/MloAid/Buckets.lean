import VendorModules.MloAid.Exclusive

namespace VendorModules.MloAid

/-! The AID that the allocation takes: the indices of its buckets in the order in which they are
looked at, and which of them is preferred. -/

/-- The indices that the loop of `wlan_mlo_alloc_aid` still has to look at. -/
def indicesFrom (startIdx endIdx currIdx : Nat) : List Nat :=
  if startIdx < endIdx then List.range' currIdx (endIdx - currIdx)
  else (List.range' endIdx (currIdx + 1 - endIdx)).reverse

def scanOrder (bucket : Nat × Nat) : List Nat := indicesFrom bucket.1 bucket.2 bucket.1

theorem indicesFrom_of_not_check {startIdx endIdx currIdx : Nat}
    (past : wlanMloAidIdxCheck startIdx endIdx currIdx = false) :
    indicesFrom startIdx endIdx currIdx = [] := by
  unfold wlanMloAidIdxCheck at past
  unfold indicesFrom
  by_cases up : startIdx < endIdx
  · rw [if_pos up, decide_eq_false_iff_not] at past
    rw [if_pos up, Nat.sub_eq_zero_of_le (Nat.le_of_not_lt past), List.range'_zero]
  · rw [if_neg up, decide_eq_false_iff_not] at past
    have none : currIdx + 1 - endIdx = 0 := by omega
    rw [if_neg up, none, List.range'_zero, List.reverse_nil]

theorem indicesFrom_of_check {startIdx endIdx currIdx : Nat}
    (inside : wlanMloAidIdxCheck startIdx endIdx currIdx = true) :
    indicesFrom startIdx endIdx currIdx =
      currIdx :: ((wlanMloAidIdxUpdate startIdx endIdx currIdx).map
        (indicesFrom startIdx endIdx)).getD [] := by
  unfold wlanMloAidIdxCheck at inside
  unfold wlanMloAidIdxUpdate
  by_cases up : startIdx < endIdx
  · rw [if_pos up, decide_eq_true_eq] at inside
    have one : endIdx - currIdx = endIdx - (currIdx + 1) + 1 := by omega
    simp only [indicesFrom, if_pos up, Option.map_some, Option.getD_some]
    rw [one, List.range'_succ]
  · rw [if_neg up, decide_eq_true_eq] at inside
    have split : List.range' endIdx (currIdx + 1 - endIdx) =
        List.range' endIdx (currIdx - endIdx) ++ [currIdx] := by
      have one : currIdx + 1 - endIdx = currIdx - endIdx + 1 := by omega
      rw [one, List.range'_concat]
      congr 2
      omega
    simp only [indicesFrom, if_neg up]
    rw [split, List.reverse_append, List.reverse_singleton, List.singleton_append]
    congr 1
    by_cases bottom : currIdx = 0
    · have none : currIdx - endIdx = 0 := by omega
      rw [if_pos bottom, none]
      rfl
    · have same : currIdx - 1 + 1 - endIdx = currIdx - endIdx := by omega
      simp only [if_neg bottom, Option.map_some, Option.getD_some, indicesFrom, if_neg up, same]

theorem length_indicesFrom (startIdx endIdx : Nat) :
    (indicesFrom startIdx endIdx startIdx).length ≤ rounds startIdx endIdx := by
  unfold indicesFrom rounds
  split <;> simp <;> omega

theorem mem_scanOrder {bucket : Nat × Nat} {idx : Nat} :
    idx ∈ scanOrder bucket ↔
      if bucket.1 < bucket.2 then bucket.1 ≤ idx ∧ idx < bucket.2
      else bucket.2 ≤ idx ∧ idx ≤ bucket.1 := by
  unfold scanOrder indicesFrom
  split
  · rw [List.mem_range'_1]
    omega
  · rw [List.mem_reverse, List.mem_range'_1]
    omega

variable {Mld Mgr : Type} [DecidableEq Mld] [DecidableEq Mgr] {n : Nat}

section Peers

variable (cfg : Config Mld Mgr n) (mld : Mld) (maps : Bitmaps Mld Mgr)

/-- The index is free for a peer: on all links for a multi-link peer, on its own link for
another; and no multi-link peer has it. -/
def isFree (linkIx : Option (Fin n)) (idx : Nat) : Bool :=
  !maps.aidBitmap mld idx &&
    match linkIx with
    | none => (List.finRange n).all fun ix => !linkBit cfg mld maps.vdevBitmap ix idx
    | some ix => (cfg.aidMgr mld ix).any fun mgr => !maps.vdevBitmap mgr idx

def isUsedElsewhere (linkIx : Fin n) (idx : Nat) : Bool :=
  (List.finRange n).any fun ix => ix != linkIx && linkBit cfg mld maps.vdevBitmap ix idx

/-- The index to be taken from a bucket: for a single-link peer the first free one that is in
use on another link, or else the first free one. -/
def preferred (linkIx : Option (Fin n)) (bucket : Nat × Nat) : Option Nat :=
  match linkIx with
  | none => (scanOrder bucket).find? (isFree cfg mld maps none)
  | some ix =>
    ((scanOrder bucket).find? fun idx =>
      isFree cfg mld maps (some ix) idx && isUsedElsewhere cfg mld maps ix idx).or
    ((scanOrder bucket).find? (isFree cfg mld maps (some ix)))

structure Allocates (linkIx : Option (Fin n)) (t2lmPeer : Bool) (assocId : Nat) : Prop where
  inRange : assocId ≠ NO_AID → cfg.startAid mld < assocId ∧ assocId ≤ cfg.maxAid mld
  free : assocId ≠ NO_AID → isFree cfg mld maps linkIx (assocId - 1) = true
  fails : assocId = NO_AID →
    ∀ idx, cfg.startAid mld ≤ idx → idx < cfg.maxAid mld → isFree cfg mld maps linkIx idx = false
  /-- It comes from the first bucket that has a free one. -/
  chosen : assocId ≠ NO_AID →
    (buckets (cfg.startAid mld) (cfg.maxAid mld) t2lmPeer).findSome?
      (preferred cfg mld maps linkIx) = some (assocId - 1)

end Peers

section Links

variable {cfg : Config Mld Mgr n} {mld : Mld}

omit [DecidableEq Mld] [DecidableEq Mgr] in
theorem checkAidFreeFrom_iff {bitmap : Mgr → Nat → Bool} {idx : Nat} {skip : Option (Fin n)}
    {links : List (Fin n)} :
    checkAidFreeFrom cfg mld bitmap idx skip links = true ↔
      (∃ last, links.getLast? = some last ∧ skip ≠ some last) ∧
        ∀ ix ∈ links, skip = some ix ∨ linkBit cfg mld bitmap ix idx = false := by
  induction links with
  | nil => simp [checkAidFreeFrom]
  | cons ix links ih =>
    unfold checkAidFreeFrom
    by_cases skipped : skip = some ix
    · rw [if_pos skipped, ih]
      cases links with
      | nil => simp [skipped]
      | cons next rest => simp [skipped]
    · rw [if_neg skipped]
      cases bit : linkBit cfg mld bitmap ix idx with
      | true => simp [skipped, bit]
      | false =>
        cases links with
        | nil => simp [skipped, bit]
        | cons next rest =>
          rw [if_neg (by simp), List.isEmpty_cons, if_neg (by simp), ih]
          simp [bit]

end Links

/-! ### One bucket -/

section Bucket

variable {cfg : Config Mld Mgr (n + 1)} {mld : Mld} {maps : Bitmaps Mld Mgr}

omit [DecidableEq Mld] [DecidableEq Mgr] in
theorem wlanMloCheckAidFree_iff {bitmap : Mgr → Nat → Bool} {idx : Nat}
    {skip : Option (Fin (n + 1))} :
    wlanMloCheckAidFree cfg mld bitmap idx skip = true ↔
      skip ≠ some (Fin.last n) ∧ ∀ ix, skip = some ix ∨ linkBit cfg mld bitmap ix idx = false := by
  have last : (List.finRange (n + 1)).getLast? = some (Fin.last n) := by
    rw [List.finRange_succ_last, List.getLast?_concat]
  rw [wlanMloCheckAidFree, checkAidFreeFrom_iff, last]
  simp

omit [DecidableEq Mld] [DecidableEq Mgr] in
theorem wlanMloCheckAidFree_none (idx : Nat) :
    (!maps.aidBitmap mld idx && wlanMloCheckAidFree cfg mld maps.vdevBitmap idx none) =
      isFree cfg mld maps none idx := by
  rw [isFree, Bool.eq_iff_iff, Bool.and_eq_true, Bool.and_eq_true, wlanMloCheckAidFree_iff]
  simp

omit [DecidableEq Mld] [DecidableEq Mgr] in
theorem wlanMloCheckAidFree_some (ix : Fin (n + 1)) (idx : Nat) :
    (!wlanMloCheckAidFree cfg mld maps.vdevBitmap idx (some ix)) =
      (decide (ix = Fin.last n) || isUsedElsewhere cfg mld maps ix idx) := by
  rw [Bool.eq_iff_iff, Bool.not_eq_true', ← Bool.not_eq_true, wlanMloCheckAidFree_iff,
    Bool.or_eq_true, decide_eq_true_eq]
  by_cases last : ix = Fin.last n
  · simp [last]
  · simp [last, isUsedElsewhere, @eq_comm _ ix]

def aidOf (found : Option Nat) : Nat := (found.map (· + 1)).getD NO_AID

theorem allocMulti_eq (startIdx endIdx rounds assocIdx : Nat)
    (enough : (indicesFrom startIdx endIdx assocIdx).length ≤ rounds) :
    (allocMulti cfg mld maps startIdx endIdx rounds assocIdx).2 =
        aidOf ((indicesFrom startIdx endIdx assocIdx).find? (isFree cfg mld maps none)) ∧
      ((indicesFrom startIdx endIdx assocIdx).find? (isFree cfg mld maps none) = none →
        (allocMulti cfg mld maps startIdx endIdx rounds assocIdx).1 = maps) := by
  induction rounds generalizing assocIdx with
  | zero =>
    have none := List.eq_nil_of_length_eq_zero (Nat.le_zero.1 enough)
    rw [none]
    exact ⟨rfl, fun _ => rfl⟩
  | succ rounds ih =>
    unfold allocMulti
    cases inside : wlanMloAidIdxCheck startIdx endIdx assocIdx with
    | false =>
      rw [indicesFrom_of_not_check inside]
      exact ⟨rfl, fun _ => rfl⟩
    | true =>
      rw [Bool.not_true, if_neg Bool.false_ne_true, wlanMloCheckAidFree_none]
      rw [indicesFrom_of_check inside] at enough ⊢
      rw [List.find?_cons]
      cases free : isFree cfg mld maps none assocIdx with
      | true => exact ⟨rfl, fun found => by cases found⟩
      | false =>
        rw [if_neg Bool.false_ne_true]
        cases next : wlanMloAidIdxUpdate startIdx endIdx assocIdx with
        | none => exact ⟨rfl, fun _ => rfl⟩
        | some idx =>
          rw [next, Option.map_some, Option.getD_some, List.length_cons] at enough
          exact ih idx (Nat.le_of_succ_le_succ enough)

/-- What the loop for a single-link peer takes at once: a free index that counts as used
elsewhere. -/
def takesAtOnce (cfg : Config Mld Mgr (n + 1)) (mld : Mld) (maps : Bitmaps Mld Mgr)
    (linkIx : Fin (n + 1)) (idx : Nat) : Bool :=
  isFree cfg mld maps (some linkIx) idx &&
    (decide (linkIx = Fin.last n) || isUsedElsewhere cfg mld maps linkIx idx)

omit [DecidableEq Mld] in
theorem allocSingle_eq {mgr : Mgr} {linkIx : Fin (n + 1)}
    (managed : cfg.aidMgr mld linkIx = some mgr)
    (startIdx endIdx rounds assocIdx firstAid : Nat)
    (enough : (indicesFrom startIdx endIdx assocIdx).length ≤ rounds) :
    allocSingle cfg mld maps linkIx mgr startIdx endIdx rounds assocIdx firstAid =
      match (indicesFrom startIdx endIdx assocIdx).find? (takesAtOnce cfg mld maps linkIx) with
      | some idx =>
        ({ maps with vdevBitmap := writeBit maps.vdevBitmap mgr idx true }, idx + 1)
      | none =>
        takeFirst maps mgr
          (if firstAid = 0 then
            (((indicesFrom startIdx endIdx assocIdx).find?
              (isFree cfg mld maps (some linkIx))).map (· + 1)).getD 0
          else firstAid) := by
  have free : ∀ idx, (!maps.aidBitmap mld idx && !maps.vdevBitmap mgr idx) =
      isFree cfg mld maps (some linkIx) idx := by
    intro idx
    simp [isFree, managed]
  induction rounds generalizing assocIdx firstAid with
  | zero =>
    have none := List.eq_nil_of_length_eq_zero (Nat.le_zero.1 enough)
    rw [none]
    by_cases first : firstAid = 0
    · simp [allocSingle, first]
    · simp [allocSingle, first]
  | succ rounds ih =>
    unfold allocSingle
    cases inside : wlanMloAidIdxCheck startIdx endIdx assocIdx with
    | false =>
      rw [indicesFrom_of_not_check inside]
      by_cases first : firstAid = 0
      · simp [first]
      · simp [first]
    | true =>
      rw [Bool.not_true, if_neg Bool.false_ne_true]
      simp only [free, wlanMloCheckAidFree_some]
      rw [indicesFrom_of_check inside] at enough ⊢
      rw [List.find?_cons, List.find?_cons]
      change (if takesAtOnce cfg mld maps linkIx assocIdx = true then _ else _) = _
      cases taken : takesAtOnce cfg mld maps linkIx assocIdx with
      | true => rfl
      | false =>
        rw [if_neg Bool.false_ne_true]
        cases next : wlanMloAidIdxUpdate startIdx endIdx assocIdx with
        | none =>
          simp only [Option.map_none, Option.getD_none, List.find?_nil]
          congr 1
          cases isFree cfg mld maps (some linkIx) assocIdx <;>
            by_cases first : firstAid = 0 <;> simp [first]
        | some idx =>
          rw [next, Option.map_some, Option.getD_some, List.length_cons] at enough
          simp only [Option.map_some, Option.getD_some]
          rw [ih idx _ (Nat.le_of_succ_le_succ enough)]
          cases isFree cfg mld maps (some linkIx) assocIdx <;>
            by_cases first : firstAid = 0 <;> simp [first]

omit [DecidableEq Mld] in
theorem takeFirst_eq (mgr : Mgr) (found : Option Nat) :
    (takeFirst maps mgr ((found.map (· + 1)).getD 0)).2 = aidOf found ∧
      (found = none → (takeFirst maps mgr ((found.map (· + 1)).getD 0)).1 = maps) := by
  cases found with
  | none => exact ⟨rfl, fun _ => rfl⟩
  | some idx => exact ⟨rfl, fun none => nomatch none⟩

/-- The index that `wlan_mlo_alloc_aid` takes from a bucket. -/
def takenFrom (cfg : Config Mld Mgr (n + 1)) (mld : Mld) (maps : Bitmaps Mld Mgr)
    (linkIx : Option (Fin (n + 1))) (bucket : Nat × Nat) : Option Nat :=
  match linkIx with
  | none => (scanOrder bucket).find? (isFree cfg mld maps none)
  | some ix =>
    ((scanOrder bucket).find? (takesAtOnce cfg mld maps ix)).or
      ((scanOrder bucket).find? (isFree cfg mld maps (some ix)))

theorem wlanMloAllocAid_eq (linkIx : Option (Fin (n + 1))) (bucket : Nat × Nat) :
    (wlanMloAllocAid cfg mld maps bucket.1 bucket.2 linkIx).2 =
        aidOf (takenFrom cfg mld maps linkIx bucket) ∧
      (takenFrom cfg mld maps linkIx bucket = none →
        (wlanMloAllocAid cfg mld maps bucket.1 bucket.2 linkIx).1 = maps) := by
  have enough := length_indicesFrom bucket.1 bucket.2
  unfold wlanMloAllocAid takenFrom
  cases linkIx with
  | none => exact allocMulti_eq bucket.1 bucket.2 _ _ enough
  | some ix =>
    cases managed : cfg.aidMgr mld ix with
    | none =>
      have free : isFree cfg mld maps (some ix) = fun _ => false := by
        funext idx
        simp [isFree, managed]
      have taken : takesAtOnce cfg mld maps ix = fun _ => false := by
        funext idx
        simp [takesAtOnce, free]
      have nothing : ∀ list : List Nat, list.find? (fun _ => false) = none := by simp
      simp only [free, taken, nothing, Option.none_or, managed]
      exact ⟨rfl, fun _ => trivial⟩
    | some mgr =>
      have order : indicesFrom bucket.1 bucket.2 bucket.1 = scanOrder bucket := rfl
      simp only [managed]
      rw [allocSingle_eq managed _ _ _ _ _ enough, if_pos rfl, order]
      cases (scanOrder bucket).find? (takesAtOnce cfg mld maps ix) with
      | some idx => exact ⟨rfl, fun none => nomatch none⟩
      | none => exact takeFirst_eq mgr _

end Bucket

/-! ### All buckets -/

section Buckets

variable {cfg : Config Mld Mgr (n + 1)} {mld : Mld} {maps : Bitmaps Mld Mgr}
  {linkIx : Option (Fin (n + 1))}

theorem tryBuckets_eq (list : List (Nat × Nat))
    (small : ∀ bucket ∈ list, ∀ idx, takenFrom cfg mld maps linkIx bucket = some idx →
      idx + 1 ≠ NO_AID) :
    (tryBuckets cfg mld linkIx list maps).2 =
      aidOf (list.findSome? (takenFrom cfg mld maps linkIx)) := by
  induction list with
  | nil => rfl
  | cons bucket list ih =>
    obtain ⟨aid, same⟩ := @wlanMloAllocAid_eq _ _ _ _ _ cfg mld maps linkIx bucket
    unfold tryBuckets
    dsimp only
    rw [List.findSome?_cons]
    cases taken : takenFrom cfg mld maps linkIx bucket with
    | none =>
      rw [taken] at aid same
      rw [if_neg (by rw [aid]; exact fun given => given rfl), same rfl]
      exact ih fun bucket' mem => small bucket' (List.mem_cons_of_mem _ mem)
    | some idx =>
      rw [taken] at aid
      have given := small bucket List.mem_cons_self idx taken
      rw [if_pos (by rw [aid]; exact given), aid]

theorem mem_range_of_mem_buckets {startAid maxAid : Nat} {t2lmPeer : Bool}
    {bucket : Nat × Nat} {idx : Nat} (below : startAid < maxAid)
    (mem : bucket ∈ buckets startAid maxAid t2lmPeer) (there : idx ∈ scanOrder bucket) :
    startAid ≤ idx ∧ idx < maxAid := by
  rw [mem_scanOrder] at there
  unfold buckets AID_NUM_BUCKET at mem
  rw [if_neg (by omega)] at mem
  cases t2lmPeer <;> simp only [Bool.false_eq_true, if_false, if_true, List.mem_cons,
    List.not_mem_nil, or_false] at mem <;> rcases mem with rfl | rfl | rfl <;>
    dsimp only at there <;> split at there <;> omega

theorem exists_bucket {startAid maxAid idx : Nat} (t2lmPeer : Bool) (above : startAid ≤ idx)
    (below : idx < maxAid) :
    ∃ bucket ∈ buckets startAid maxAid t2lmPeer, idx ∈ scanOrder bucket := by
  unfold buckets AID_NUM_BUCKET
  rw [if_neg (by omega)]
  cases t2lmPeer <;> simp only [Bool.false_eq_true, if_false, if_true, List.mem_cons,
    List.not_mem_nil, or_false, exists_eq_or_imp, exists_eq_left, mem_scanOrder] <;>
    split_ifs <;> omega

theorem scanOrder_of_mem_buckets {startAid : Nat} {t2lmPeer : Bool} {bucket : Nat × Nat}
    (mem : bucket ∈ buckets startAid startAid t2lmPeer) : scanOrder bucket = [startAid] := by
  have same : bucket = (startAid, startAid) := by
    unfold buckets AID_NUM_BUCKET at mem
    cases t2lmPeer <;> simpa using mem
  have one : startAid + 1 - startAid = 1 := by omega
  rw [same, scanOrder, indicesFrom, if_neg (Nat.lt_irrefl _), one]
  rfl

end Buckets

section Choice

variable {α : Type} {list : List α} {good better : α → Bool} {a : α}

theorem isSome_find?_or : ((list.find? fun b => good b && better b).or (list.find? good)).isSome =
    list.any good := by
  rw [Bool.eq_iff_iff, Option.isSome_or, Bool.or_eq_true, List.find?_isSome, List.find?_isSome,
    List.any_eq_true]
  constructor
  · rintro (⟨b, mem, both⟩ | found)
    · rw [Bool.and_eq_true] at both
      exact ⟨b, mem, both.1⟩
    · exact found
  · exact .inr

theorem find?_or_find? (first : list.find? good = some a) :
    (list.find? fun b => good b && better b).or (list.find? good) = some a ↔
      better a = true ∨ ∀ b ∈ list, good b = true → better b = false := by
  obtain ⟨here, before, behind, split, early⟩ := List.find?_eq_some_iff_append.1 first
  have skipped : before.find? (fun b => good b && better b) = none := by
    refine List.find?_eq_none.2 fun b mem both => ?_
    rw [Bool.and_eq_true] at both
    simpa [both.1] using early b mem
  have cut : list.find? (fun b => good b && better b) =
      if better a = true then some a else behind.find? fun b => good b && better b := by
    rw [split, List.find?_append, skipped, Option.none_or, List.find?_cons, here, Bool.true_and]
    cases better a <;> rfl
  rw [first, cut]
  by_cases prefers : better a = true
  · simp [prefers]
  · rw [if_neg prefers]
    cases later : behind.find? fun b => good b && better b with
    | some c =>
      have found := List.find?_some later
      have mem := List.mem_of_find?_eq_some later
      rw [Bool.and_eq_true] at found
      refine iff_of_false (fun same => ?_) ?_
      · rw [Option.some_or, Option.some.injEq] at same
        exact prefers (same ▸ found.2)
      · rintro (yes | none)
        · exact prefers yes
        · have no := none c (by rw [split]; simp [mem]) found.1
          rw [found.2] at no
          cases no
    | none =>
      refine iff_of_true rfl (.inr fun b mem ok => ?_)
      rw [split, List.mem_append, List.mem_cons] at mem
      rcases mem with early' | rfl | late
      · simpa [ok] using early b early'
      · simpa using prefers
      · simpa [ok] using List.find?_eq_none.1 later b late

theorem findSome?_eq_bind {β γ : Type} {lists : List γ} {has : γ → Bool} {find : γ → Option β}
    (finds : ∀ c, (find c).isSome = has c) : lists.findSome? find = (lists.find? has).bind find := by
  induction lists with
  | nil => rfl
  | cons c lists ih =>
    rw [List.findSome?_cons, List.find?_cons, ← finds c]
    cases found : find c with
    | none => exact ih
    | some b => exact found.symm

end Choice

section Main

variable {cfg : Config Mld Mgr (n + 1)} {mld : Mld} {maps : Bitmaps Mld Mgr}
  {linkIx : Option (Fin (n + 1))} {t2lmPeer : Bool} {bucket : Nat × Nat} {idx : Nat}

def hasFree (cfg : Config Mld Mgr n) (mld : Mld) (maps : Bitmaps Mld Mgr)
    (linkIx : Option (Fin n)) (bucket : Nat × Nat) : Bool :=
  (scanOrder bucket).any (isFree cfg mld maps linkIx)

omit [DecidableEq Mld] [DecidableEq Mgr] in
theorem isSome_takenFrom (bucket : Nat × Nat) :
    (takenFrom cfg mld maps linkIx bucket).isSome = hasFree cfg mld maps linkIx bucket := by
  unfold takenFrom hasFree
  cases linkIx with
  | none => exact List.isSome_find?
  | some ix => exact isSome_find?_or

omit [DecidableEq Mld] [DecidableEq Mgr] in
theorem isSome_preferred (bucket : Nat × Nat) :
    (preferred cfg mld maps linkIx bucket).isSome = hasFree cfg mld maps linkIx bucket := by
  unfold preferred hasFree
  cases linkIx with
  | none => exact List.isSome_find?
  | some ix => exact isSome_find?_or

omit [DecidableEq Mld] [DecidableEq Mgr] in
theorem mem_of_takenFrom (taken : takenFrom cfg mld maps linkIx bucket = some idx) :
    idx ∈ scanOrder bucket ∧ isFree cfg mld maps linkIx idx = true := by
  unfold takenFrom at taken
  cases linkIx with
  | none => exact ⟨List.mem_of_find?_eq_some taken, List.find?_some taken⟩
  | some ix =>
    rcases Option.or_eq_some_iff.1 taken with found | ⟨-, found⟩
    · have both := List.find?_some found
      rw [takesAtOnce, Bool.and_eq_true] at both
      exact ⟨List.mem_of_find?_eq_some found, both.1⟩
    · exact ⟨List.mem_of_find?_eq_some found, List.find?_some found⟩

omit [DecidableEq Mld] [DecidableEq Mgr] in
theorem takenFrom_eq_preferred (notLast : linkIx ≠ some (Fin.last n)) :
    takenFrom cfg mld maps linkIx = preferred cfg mld maps linkIx := by
  funext bucket
  cases linkIx with
  | none => rfl
  | some ix =>
    have apart : ix ≠ Fin.last n := fun same => notLast (same ▸ rfl)
    have same : takesAtOnce cfg mld maps ix = fun idx =>
        isFree cfg mld maps (some ix) idx && isUsedElsewhere cfg mld maps ix idx := by
      funext idx
      simp [takesAtOnce, apart]
    simp only [takenFrom, preferred, same]

omit [DecidableEq Mld] [DecidableEq Mgr] in
theorem takenFrom_last : takenFrom cfg mld maps (some (Fin.last n)) bucket =
    (scanOrder bucket).find? (isFree cfg mld maps (some (Fin.last n))) := by
  have same : takesAtOnce cfg mld maps (Fin.last n) =
      isFree cfg mld maps (some (Fin.last n)) := by
    funext idx
    simp [takesAtOnce]
  simp only [takenFrom, same, Option.or_self]

def Spared (cfg : Config Mld Mgr (n + 1)) (mld : Mld) (maps : Bitmaps Mld Mgr)
    (linkIx : Option (Fin (n + 1))) (t2lmPeer : Bool) : Prop :=
  linkIx = some (Fin.last n) → ∀ bucket first,
    (buckets (cfg.startAid mld) (cfg.maxAid mld) t2lmPeer).find?
      (hasFree cfg mld maps linkIx) = some bucket →
    (scanOrder bucket).find? (isFree cfg mld maps linkIx) = some first →
      isUsedElsewhere cfg mld maps (Fin.last n) first = true ∨
        ∀ idx ∈ scanOrder bucket, isFree cfg mld maps linkIx idx = true →
          isUsedElsewhere cfg mld maps (Fin.last n) idx = false

theorem wlanMloPeerAllocAid_eq (below : cfg.startAid mld < cfg.maxAid mld) :
    (wlanMloPeerAllocAid cfg mld maps t2lmPeer linkIx).2 =
      aidOf ((buckets (cfg.startAid mld) (cfg.maxAid mld) t2lmPeer).findSome?
        (takenFrom cfg mld maps linkIx)) := by
  unfold wlanMloPeerAllocAid
  rw [if_neg (Nat.not_lt.2 (Nat.le_of_lt below))]
  refine tryBuckets_eq _ fun bucket mem idx taken => ?_
  have inside := mem_range_of_mem_buckets below mem (mem_of_takenFrom taken).1
  have bound := cfg.maxAid_le mld
  simp only [WLAN_UMAC_MAX_AID] at bound
  simp only [NO_AID]
  omega

theorem wlanMloPeerAllocAid_eq_of_empty (empty : cfg.startAid mld = cfg.maxAid mld) :
    (wlanMloPeerAllocAid cfg mld maps t2lmPeer linkIx).2 =
      if isFree cfg mld maps linkIx (cfg.startAid mld) = true then cfg.startAid mld + 1
      else NO_AID := by
  have bound := cfg.maxAid_le mld
  simp only [WLAN_UMAC_MAX_AID] at bound
  have only : ∀ bucket ∈ buckets (cfg.startAid mld) (cfg.maxAid mld) t2lmPeer,
      scanOrder bucket = [cfg.startAid mld] := by
    intro bucket mem
    rw [← empty] at mem
    exact scanOrder_of_mem_buckets mem
  have taken : ∀ bucket ∈ buckets (cfg.startAid mld) (cfg.maxAid mld) t2lmPeer, ∀ idx,
      takenFrom cfg mld maps linkIx bucket = some idx → idx = cfg.startAid mld := by
    intro bucket mem idx found
    have there := (mem_of_takenFrom found).1
    rw [only bucket mem] at there
    exact List.mem_singleton.1 there
  unfold wlanMloPeerAllocAid
  rw [if_neg (by omega), tryBuckets_eq _ fun bucket mem idx found => by
    rw [taken bucket mem idx found]
    simp only [NO_AID]
    omega]
  rw [findSome?_eq_bind isSome_takenFrom]
  by_cases free : isFree cfg mld maps linkIx (cfg.startAid mld) = true
  · rw [if_pos free]
    cases found : (buckets (cfg.startAid mld) (cfg.maxAid mld) t2lmPeer).find?
      (hasFree cfg mld maps linkIx) with
    | none =>
      obtain ⟨bucket, mem⟩ := List.exists_mem_of_ne_nil
        (buckets (cfg.startAid mld) (cfg.maxAid mld) t2lmPeer) (by
          unfold buckets
          dsimp only
          split_ifs <;> simp)
      have no := List.find?_eq_none.1 found bucket mem
      simp [hasFree, only bucket mem, free] at no
    | some bucket =>
      have mem := List.mem_of_find?_eq_some found
      have some := List.find?_some found
      rw [← isSome_takenFrom, Option.isSome_iff_exists] at some
      obtain ⟨idx, there⟩ := some
      rw [Option.bind_some, there, taken bucket mem idx there]
      rfl
  · rw [if_neg free]
    have none : (buckets (cfg.startAid mld) (cfg.maxAid mld) t2lmPeer).find?
        (hasFree cfg mld maps linkIx) = none := by
      refine List.find?_eq_none.2 fun bucket mem has => ?_
      simp [hasFree, only bucket mem, free] at has
    rw [none]
    rfl

omit [DecidableEq Mld] [DecidableEq Mgr] in
theorem allocates_noAid {cfg : Config Mld Mgr n} {mld : Mld} {maps : Bitmaps Mld Mgr}
    {linkIx : Option (Fin n)} {t2lmPeer : Bool}
    (none : ∀ idx, cfg.startAid mld ≤ idx → idx < cfg.maxAid mld →
      isFree cfg mld maps linkIx idx = false) : Allocates cfg mld maps linkIx t2lmPeer NO_AID :=
  ⟨fun given => absurd rfl given, fun given => absurd rfl given, fun _ => none,
    fun given => absurd rfl given⟩

theorem allocates_below_iff {cfg : Config Mld Mgr (n + 1)} {mld : Mld}
    (below : cfg.startAid mld < cfg.maxAid mld) (maps : Bitmaps Mld Mgr)
    (linkIx : Option (Fin (n + 1))) (t2lmPeer : Bool) :
    Allocates cfg mld maps linkIx t2lmPeer (wlanMloPeerAllocAid cfg mld maps t2lmPeer linkIx).2 ↔
      Spared cfg mld maps linkIx t2lmPeer := by
  rw [wlanMloPeerAllocAid_eq below]
  have bound := cfg.maxAid_le mld
  simp only [WLAN_UMAC_MAX_AID] at bound
  have chosen : ∀ idx, (buckets (cfg.startAid mld) (cfg.maxAid mld) t2lmPeer).findSome?
      (takenFrom cfg mld maps linkIx) = some idx →
        (idx + 1 ≠ NO_AID ∧ cfg.startAid mld < idx + 1 ∧ idx + 1 ≤ cfg.maxAid mld ∧
          isFree cfg mld maps linkIx idx = true) := by
    intro idx found
    obtain ⟨bucket, mem, taken⟩ := List.exists_of_findSome?_eq_some found
    obtain ⟨there, free⟩ := mem_of_takenFrom taken
    have inside := mem_range_of_mem_buckets below mem there
    simp only [NO_AID]
    exact ⟨by omega, by omega, by omega, free⟩
  rw [findSome?_eq_bind isSome_takenFrom] at chosen ⊢
  cases found : (buckets (cfg.startAid mld) (cfg.maxAid mld) t2lmPeer).find?
      (hasFree cfg mld maps linkIx) with
  | none =>
    refine iff_of_true (allocates_noAid fun idx low high => ?_) fun _ bucket first has => ?_
    · obtain ⟨bucket, mem, there⟩ := exists_bucket t2lmPeer low high
      have no := List.find?_eq_none.1 found bucket mem
      rw [hasFree, Bool.not_eq_true, List.any_eq_false] at no
      simpa using no idx there
    · rw [found] at has
      cases has
  | some bucket =>
    have has := List.find?_some found
    rw [← isSome_takenFrom, Option.isSome_iff_exists] at has
    obtain ⟨idx, taken⟩ := has
    rw [found, Option.bind_some, taken] at chosen
    obtain ⟨given, low, high, free⟩ := chosen idx rfl
    rw [Option.bind_some, taken]
    change Allocates cfg mld maps linkIx t2lmPeer (idx + 1) ↔ _
    have byChoice : Allocates cfg mld maps linkIx t2lmPeer (idx + 1) ↔
        preferred cfg mld maps linkIx bucket = some idx := by
      have choice : (buckets (cfg.startAid mld) (cfg.maxAid mld) t2lmPeer).findSome?
          (preferred cfg mld maps linkIx) = preferred cfg mld maps linkIx bucket := by
        rw [findSome?_eq_bind isSome_preferred, found, Option.bind_some]
      constructor
      · intro allocates
        rw [← choice]
        exact allocates.chosen given
      · intro same
        exact ⟨fun _ => ⟨low, high⟩, fun _ => free, fun none => absurd none given,
          fun _ => choice.trans same⟩
    rw [byChoice]
    by_cases last : linkIx = some (Fin.last n)
    · subst last
      rw [takenFrom_last] at taken
      refine (find?_or_find? taken).trans ⟨fun spares => ?_, fun both => ?_⟩
      · intro _ other first has is
        rw [found, Option.some.injEq] at has
        subst has
        rw [taken, Option.some.injEq] at is
        subst is
        exact spares
      · exact both rfl bucket idx found taken
    · rw [← takenFrom_eq_preferred last]
      exact iff_of_true taken fun same => absurd same last

/-- An allocation returns what it should exactly if the range is not empty, or its start is not
free, and the last link's peers are spared the search. -/
theorem wlanMloPeerAllocAid_allocates_iff (cfg : Config Mld Mgr (n + 1)) (mld : Mld)
    (maps : Bitmaps Mld Mgr) (linkIx : Option (Fin (n + 1))) (t2lmPeer : Bool) :
    Allocates cfg mld maps linkIx t2lmPeer (wlanMloPeerAllocAid cfg mld maps t2lmPeer linkIx).2 ↔
      (cfg.startAid mld = cfg.maxAid mld →
        isFree cfg mld maps linkIx (cfg.startAid mld) = false) ∧
      (cfg.startAid mld < cfg.maxAid mld → Spared cfg mld maps linkIx t2lmPeer) := by
  have bound := cfg.maxAid_le mld
  simp only [WLAN_UMAC_MAX_AID] at bound
  rcases Nat.lt_trichotomy (cfg.startAid mld) (cfg.maxAid mld) with below | empty | above
  · rw [allocates_below_iff below maps linkIx t2lmPeer, and_iff_right fun same =>
      absurd same (Nat.ne_of_lt below), imp_iff_right below]
  · rw [wlanMloPeerAllocAid_eq_of_empty empty]
    cases free : isFree cfg mld maps linkIx (cfg.startAid mld) with
    | true =>
      rw [if_pos rfl]
      refine iff_of_false (fun allocates => ?_) fun both => absurd (both.1 empty) (by simp)
      have inside := allocates.inRange (by simp only [NO_AID]; omega)
      omega
    | false =>
      rw [if_neg Bool.false_ne_true]
      refine iff_of_true (allocates_noAid fun idx low high => ?_) ⟨fun _ => rfl, fun below => ?_⟩
      · omega
      · omega
  · have fails : (wlanMloPeerAllocAid cfg mld maps t2lmPeer linkIx).2 = NO_AID := by
      rw [wlanMloPeerAllocAid, if_pos above]
    rw [fails]
    refine iff_of_true (allocates_noAid fun idx low high => ?_) ⟨fun same => ?_, fun below => ?_⟩
    · omega
    · omega
    · omega

theorem twoLinks_neZero : NeZero 2 := ⟨by decide⟩

attribute [local instance] twoLinks_neZero in
def oneInUse : Bitmaps Unit (Fin 2) where
  aidBitmap _ _ := false
  vdevBitmap mgr nr := decide (mgr = 0 ∧ nr = 1)

/-- A peer of the last link gets AID 1, which no link uses, in place of AID 2. -/
theorem oneInUse_not_allocates :
    (wlanMloPeerAllocAid sampleConfig () oneInUse false (some 1)).2 = 1 ∧
      preferred sampleConfig () oneInUse (some 1) (0, 3) = some 1 ∧
      ¬Allocates sampleConfig () oneInUse (some 1) false
        (wlanMloPeerAllocAid sampleConfig () oneInUse false (some 1)).2 := by
  have aid : (wlanMloPeerAllocAid sampleConfig () oneInUse false (some 1)).2 = 1 := by
    decide +kernel
  refine ⟨aid, by decide +kernel, fun allocates => ?_⟩
  rw [aid] at allocates
  have chosen := allocates.chosen (by decide)
  have other : (buckets 0 9 false).findSome? (preferred sampleConfig () oneInUse (some 1)) =
      some 1 := by
    decide +kernel
  rw [other] at chosen
  cases chosen

end Main

end VendorModules.MloAid
