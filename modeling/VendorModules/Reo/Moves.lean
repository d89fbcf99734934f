import VendorModules.Reo.Lists

namespace VendorModules.Reo

/-! How frames are moved from the ingress list to the egress list, with the temporary list between
them and every exit. -/

namespace ListEntry

def markIngressOverflow (entry : ListEntry) : ListEntry :=
  { entry with status := { entry.status with ingressListOverflow := true } }

def markEgressOverflow (entry : ListEntry) : ListEntry :=
  { entry with status := { entry.status with egressListOverflow := true } }

def unmarked (entry : ListEntry) : ListEntry :=
  { entry with
    status := { entry.status with ingressListOverflow := false, egressListOverflow := false } }

end ListEntry

/-- What the walk over the ingress list leaves: the entries, the place of the latest one that is
ready, and how many are ready. -/
structure Scan where
  entries : List ListEntry
  latestFrameReadyToDeliver : Nat
  numFramesReadyToDeliver : Nat

/-- The walk, from the entry at `pos` on; the number of frames is a `uint16_t`. -/
def scanIngress : Nat → Nat → List ListEntry → Nat → Nat → Scan
  | _, _, [], latest, num => ⟨[], latest, num⟩
  | overflow, pos, cur :: rest, latest, num =>
    let cur := if 0 < overflow then cur.markIngressOverflow else cur
    if cur.isReadyToSendUp then
      let scan := scanIngress (overflow - 1) (pos + 1) rest pos ((num + 1) % 2 ^ 16)
      { scan with entries := cur :: scan.entries }
    else ⟨cur :: rest, latest, num⟩

def qdfListSplit (list : List ListEntry) (pos : Nat) : List ListEntry × List ListEntry :=
  (list.take (pos + 1), list.drop (pos + 1))

/-- `mgmt_rx_reo_check_sanity_lists` -/
def checkSanityLists (egress ingress : List ListEntry) : Bool :=
  checkSanityList egress && checkSanityList ingress &&
    match egress.getLast?, ingress.head? with
    | some last, some first => compareGlobalTimestampsGte first.globalTs last.globalTs
    | _, _ => true

inductive MoveStatus
  | success
  | eInval
  deriving DecidableEq

/-- How `mgmt_rx_reo_move_entries_ingress_to_egress_list` returns: the two lists, and what is still
on the temporary list when it is destroyed. -/
structure Moved where
  status : MoveStatus
  ingress : List ListEntry
  egress : List ListEntry
  temp : List ListEntry

/-- `mgmt_rx_reo_move_entries_ingress_to_egress_list` -/
def moveEntries (maxIngress maxEgress : Nat) (ingress egress : List ListEntry) : Moved :=
  let overflow := if maxIngress < ingress.length then ingress.length - maxIngress else 0
  let scan := scanIngress overflow 0 ingress 0 0
  if scan.numFramesReadyToDeliver ≠ 0 then
    let (temp, ingress) := qdfListSplit scan.entries scan.latestFrameReadyToDeliver
    if scan.numFramesReadyToDeliver ≠ temp.length then ⟨.eInval, ingress, egress, temp⟩
    else
      -- the frames are joined to the egress list, and the temporary list is empty again
      let egress := egress ++ temp
      let egress := if maxEgress < egress.length then handleEgressOverflow maxEgress egress
        else egress
      if checkSanityLists egress ingress then ⟨.success, ingress, egress, []⟩
      else ⟨.eInval, ingress, egress, []⟩
  else ⟨.success, scan.entries, egress, []⟩

/-! ### The oldest entries -/

/-- The first `k` entries are marked. -/
def markOldest (mark : ListEntry → ListEntry) (k : Nat) (list : List ListEntry) :
    List ListEntry :=
  (list.take k).map mark ++ list.drop k

section Oldest

variable {mark : ListEntry → ListEntry} {k n : Nat} {list : List ListEntry}

@[simp] theorem markOldest_zero : markOldest mark 0 list = list := rfl

@[simp] theorem markOldest_succ (entry : ListEntry) :
    markOldest mark (k + 1) (entry :: list) = mark entry :: markOldest mark k list := rfl

@[simp] theorem length_markOldest : (markOldest mark k list).length = list.length := by
  rw [markOldest, List.length_append, List.length_map, List.length_take, List.length_drop]
  omega

theorem markOldest_append (front back : List ListEntry) (inFront : k ≤ front.length) :
    markOldest mark k (front ++ back) = markOldest mark k front ++ back := by
  rw [markOldest, markOldest, List.take_append_of_le_length inFront,
    List.drop_append_of_le_length inFront, List.append_assoc]

theorem map_unmarked_markOldest (mark : ListEntry → ListEntry)
    (kept : ∀ entry, (mark entry).unmarked = entry.unmarked) (k : Nat) (list : List ListEntry) :
    (markOldest mark k list).map ListEntry.unmarked = list.map ListEntry.unmarked := by
  have same : ListEntry.unmarked ∘ mark = ListEntry.unmarked := funext kept
  rw [markOldest, List.map_append, List.map_map, same, ← List.map_append, List.take_append_drop]

theorem handleEgressOverflow_eq (max : Nat) (list : List ListEntry) :
    (if max < list.length then handleEgressOverflow max list else list) =
      markOldest ListEntry.markEgressOverflow (list.length - max) list := by
  split_ifs with beyond
  · rfl
  · rw [Nat.sub_eq_zero_of_le (Nat.not_lt.mp beyond), markOldest_zero]

end Oldest

/-! ### The entries that are ready -/

def ReadyAt (overflow : Nat) (list : List ListEntry) (i : Nat) : Prop :=
  ∃ entry, list[i]? = some entry ∧ (i < overflow ∨ entry.isReadyToSendUp = true)

/-- The longest prefix of entries that are ready has `n` of them. -/
structure LongestReady (overflow : Nat) (list : List ListEntry) (n : Nat) : Prop where
  ready : ∀ i < n, ReadyAt overflow list i
  stops : ¬ReadyAt overflow list n

section Ready

variable {overflow n : Nat} {list rest : List ListEntry} {cur : ListEntry}

theorem ReadyAt.tail {i : Nat} :
    ReadyAt overflow (cur :: rest) (i + 1) ↔ ReadyAt (overflow - 1) rest i := by
  rw [ReadyAt, ReadyAt, List.getElem?_cons_succ]
  refine exists_congr fun entry => and_congr_right fun _ => or_congr_left ?_
  omega

theorem LongestReady.tail (longest : LongestReady overflow (cur :: rest) (n + 1)) :
    LongestReady (overflow - 1) rest n where
  ready i below := ReadyAt.tail.mp (longest.ready (i + 1) (Nat.succ_lt_succ below))
  stops ready := longest.stops (ReadyAt.tail.mpr ready)

theorem LongestReady.head_ready (longest : LongestReady overflow (cur :: rest) (n + 1)) :
    (if 0 < overflow then cur.markIngressOverflow else cur).isReadyToSendUp = true := by
  obtain ⟨entry, same, why⟩ := longest.ready 0 (Nat.succ_pos n)
  cases same
  split_ifs with beyond
  · rfl
  · exact why.resolve_left beyond

theorem LongestReady.le_length (longest : LongestReady overflow list n) : n ≤ list.length := by
  by_contra beyond
  obtain ⟨entry, there, -⟩ := longest.ready list.length (Nat.not_le.mp beyond)
  rw [List.getElem?_eq_none le_rfl] at there
  cases there

theorem LongestReady.overflow_le (longest : LongestReady overflow list n)
    (within : overflow ≤ list.length) : overflow ≤ n := by
  by_contra less
  have inside : n < list.length := by omega
  exact longest.stops ⟨list[n], List.getElem?_eq_getElem inside, .inl (Nat.not_le.mp less)⟩

theorem scanIngress_eq (longest : LongestReady overflow list n) (pos latest num : Nat)
    (word : num < 2 ^ 16) :
    scanIngress overflow pos list latest num =
      { entries := markOldest ListEntry.markIngressOverflow overflow list
        latestFrameReadyToDeliver := if n = 0 then latest else pos + n - 1
        numFramesReadyToDeliver := (num + n) % 2 ^ 16 } := by
  induction list generalizing overflow n pos latest num with
  | nil =>
    have none : n = 0 := Nat.le_zero.mp longest.le_length
    rw [scanIngress, if_pos none, none, Nat.add_zero, Nat.mod_eq_of_lt word, markOldest,
      List.take_nil, List.drop_nil]
    rfl
  | cons cur rest ih =>
    rw [scanIngress]
    cases n with
    | zero =>
      have fits : overflow = 0 := by
        by_contra some
        exact longest.stops ⟨cur, rfl, .inl (Nat.pos_of_ne_zero some)⟩
      have waits : ¬cur.isReadyToSendUp = true :=
        fun ready => longest.stops ⟨cur, rfl, .inr ready⟩
      subst fits
      rw [if_neg (Nat.lt_irrefl 0)]
      dsimp only
      rw [if_neg waits, if_pos rfl, Nat.add_zero, Nat.mod_eq_of_lt word, markOldest_zero]
    | succ n =>
      have ready := longest.head_ready
      have entries : (if 0 < overflow then cur.markIngressOverflow else cur) ::
          markOldest ListEntry.markIngressOverflow (overflow - 1) rest =
            markOldest ListEntry.markIngressOverflow overflow (cur :: rest) := by
        cases overflow with
        | zero => rfl
        | succ overflow => rfl
      have latest_eq : (if n = 0 then pos else pos + 1 + n - 1) =
          if n + 1 = 0 then latest else pos + (n + 1) - 1 := by
        rw [if_neg (Nat.succ_ne_zero n)]
        split_ifs <;> omega
      dsimp only
      rw [if_pos ready, ih longest.tail (pos + 1) pos ((num + 1) % 2 ^ 16)
        (Nat.mod_lt _ (Nat.two_pow_pos 16)), Nat.mod_add_mod, Nat.add_assoc num, Nat.add_comm 1,
        latest_eq]
      dsimp only
      rw [entries]

theorem splitReady_cons (overflow : Nat) (cur : ListEntry) (rest : List ListEntry) :
    splitReady overflow (cur :: rest) =
      if (if 0 < overflow then cur.markIngressOverflow else cur).isReadyToSendUp = true then
        ((if 0 < overflow then cur.markIngressOverflow else cur) ::
          (splitReady (overflow - 1) rest).1, (splitReady (overflow - 1) rest).2)
      else ([], (if 0 < overflow then cur.markIngressOverflow else cur) :: rest) := rfl

theorem splitReady_eq (longest : LongestReady overflow list n) :
    splitReady overflow list =
      (markOldest ListEntry.markIngressOverflow overflow (list.take n), list.drop n) := by
  induction list generalizing overflow n with
  | nil =>
    rw [splitReady, List.take_nil, List.drop_nil, markOldest, List.take_nil, List.drop_nil]
    rfl
  | cons cur rest ih =>
    rw [splitReady_cons]
    cases n with
    | zero =>
      have fits : overflow = 0 := by
        by_contra some
        exact longest.stops ⟨cur, rfl, .inl (Nat.pos_of_ne_zero some)⟩
      have waits : ¬cur.isReadyToSendUp = true :=
        fun ready => longest.stops ⟨cur, rfl, .inr ready⟩
      rw [fits, if_neg (Nat.lt_irrefl 0), if_neg waits]
      rfl
    | succ n =>
      rw [if_pos (longest.head_ready), ih longest.tail, List.take_succ_cons,
        List.drop_succ_cons]
      cases overflow with
      | zero => rfl
      | succ overflow => rfl

end Ready

/-! ### The lists before and after -/

/-- The longest ready prefix of `n` entries is moved behind the egress list, and the oldest of
too many are marked there. -/
structure MovesPrefix (maxIngress maxEgress : Nat) (ingress egress : List ListEntry) (n : Nat)
    (moved : Moved) : Prop where
  ingress_eq : moved.ingress = ingress.drop n
  egress_eq : moved.egress =
    if n = 0 then egress
    else markOldest ListEntry.markEgressOverflow (egress.length + n - maxEgress)
      (egress ++ markOldest ListEntry.markIngressOverflow (ingress.length - maxIngress)
        (ingress.take n))
  temp_eq : moved.temp = []
  conserved : (moved.egress ++ moved.ingress).map ListEntry.unmarked =
    (egress ++ ingress).map ListEntry.unmarked
  status_eq : moved.status = .success ↔ n = 0 ∨ checkSanityLists moved.egress moved.ingress = true

section Moves

variable {maxIngress maxEgress n : Nat} {ingress egress : List ListEntry}

theorem conserved_of_eq {moved : Moved} (ingress_eq : moved.ingress = ingress.drop n)
    (egress_eq : moved.egress =
      if n = 0 then egress
      else markOldest ListEntry.markEgressOverflow (egress.length + n - maxEgress)
        (egress ++ markOldest ListEntry.markIngressOverflow (ingress.length - maxIngress)
          (ingress.take n))) :
    (moved.egress ++ moved.ingress).map ListEntry.unmarked =
      (egress ++ ingress).map ListEntry.unmarked := by
  rw [ingress_eq, egress_eq, List.map_append]
  split_ifs with none
  · rw [none, List.drop_zero, List.map_append]
  · rw [map_unmarked_markOldest ListEntry.markEgressOverflow fun _ => rfl, List.map_append,
      map_unmarked_markOldest ListEntry.markIngressOverflow fun _ => rfl, List.append_assoc, ← List.map_append, List.take_append_drop, List.map_append]

theorem moveEntries_eq (longest : LongestReady (ingress.length - maxIngress) ingress n)
    (some : n ≠ 0) :
    moveEntries maxIngress maxEgress ingress egress =
      let ready := markOldest ListEntry.markIngressOverflow (ingress.length - maxIngress)
        (ingress.take n)
      let joined := markOldest ListEntry.markEgressOverflow (egress.length + n - maxEgress)
        (egress ++ ready)
      if n % 2 ^ 16 = 0 then ⟨.success, ready ++ ingress.drop n, egress, []⟩
      else if n % 2 ^ 16 ≠ n then ⟨.eInval, ingress.drop n, egress, ready⟩
      else if checkSanityLists joined (ingress.drop n) then ⟨.success, ingress.drop n, joined, []⟩
      else ⟨.eInval, ingress.drop n, joined, []⟩ := by
  have overflow : (if maxIngress < ingress.length then ingress.length - maxIngress else 0) =
      ingress.length - maxIngress := by
    split_ifs <;> omega
  have size := longest.le_length
  have marked := longest.overflow_le (Nat.sub_le _ _)
  have scan := scanIngress_eq longest 0 0 0 (Nat.two_pow_pos 16)
  simp only [Nat.zero_add, if_neg some] at scan
  have parts : markOldest ListEntry.markIngressOverflow (ingress.length - maxIngress) ingress =
      markOldest ListEntry.markIngressOverflow (ingress.length - maxIngress) (ingress.take n) ++
        ingress.drop n := by
    rw [← markOldest_append _ _ (by rw [List.length_take]; omega), List.take_append_drop]
  have length : (markOldest ListEntry.markIngressOverflow (ingress.length - maxIngress)
      (ingress.take n)).length = n := by
    rw [length_markOldest, List.length_take, Nat.min_eq_left size]
  have place : n - 1 + 1 = n := by omega
  rw [moveEntries, overflow, scan, parts]
  dsimp only
  by_cases wrapped : n % 2 ^ 16 = 0
  · rw [if_neg (not_not.mpr wrapped), if_pos wrapped]
  · have split : qdfListSplit (markOldest ListEntry.markIngressOverflow
        (ingress.length - maxIngress) (ingress.take n) ++ ingress.drop n) (n - 1) =
          (markOldest ListEntry.markIngressOverflow (ingress.length - maxIngress)
            (ingress.take n), ingress.drop n) := by
      rw [qdfListSplit, place, List.take_left' length, List.drop_left' length]
    rw [if_pos wrapped, if_neg wrapped, split]
    dsimp only
    rw [handleEgressOverflow_eq, List.length_append, length]

/-- Every exit of the call leaves all frames on the two lists. -/
theorem moveEntries_movesPrefix (maxIngress maxEgress : Nat) (ingress egress : List ListEntry)
    (n : Nat) (longest : LongestReady (ingress.length - maxIngress) ingress n)
    (few : n < 2 ^ 16) :
    MovesPrefix maxIngress maxEgress ingress egress n
      (moveEntries maxIngress maxEgress ingress egress) := by
  by_cases none : n = 0
  · have whole : ingress.length - maxIngress = 0 := by
      have marked := longest.overflow_le (Nat.sub_le _ _)
      omega
    have overflow : (if maxIngress < ingress.length then ingress.length - maxIngress else 0) = 0 := by
      split_ifs <;> omega
    rw [whole] at longest
    have scan := scanIngress_eq longest 0 0 0 (Nat.two_pow_pos 16)
    rw [markOldest_zero, none] at scan
    rw [moveEntries, overflow, scan, none]
    exact ⟨rfl, rfl, rfl, rfl, iff_of_true rfl (.inl rfl)⟩
  · have count : n % 2 ^ 16 = n := Nat.mod_eq_of_lt few
    rw [moveEntries_eq longest none, count]
    dsimp only
    rw [if_neg none, if_neg (not_not.mpr rfl)]
    have egress_eq : markOldest ListEntry.markEgressOverflow (egress.length + n - maxEgress)
        (egress ++ markOldest ListEntry.markIngressOverflow (ingress.length - maxIngress)
          (ingress.take n)) =
        if n = 0 then egress
        else markOldest ListEntry.markEgressOverflow (egress.length + n - maxEgress)
          (egress ++ markOldest ListEntry.markIngressOverflow (ingress.length - maxIngress)
            (ingress.take n)) := (if_neg none).symm
    split_ifs with sane
    · exact ⟨rfl, egress_eq, rfl, conserved_of_eq rfl egress_eq, iff_of_true rfl (.inr sane)⟩
    · refine ⟨rfl, egress_eq, rfl, conserved_of_eq rfl egress_eq, ?_⟩
      exact iff_of_false (fun same => nomatch same) (not_or.mpr ⟨none, sane⟩)

theorem moveEntries_lists (longest : LongestReady (ingress.length - maxIngress) ingress n)
    (few : n < 2 ^ 16) :
    ((moveEntries maxIngress maxEgress ingress egress).ingress,
        (moveEntries maxIngress maxEgress ingress egress).egress) =
      moveEntriesIngressToEgressList maxIngress maxEgress ingress egress := by
  have moves := moveEntries_movesPrefix maxIngress maxEgress ingress egress n longest few
  have length : (markOldest ListEntry.markIngressOverflow (ingress.length - maxIngress)
      (ingress.take n)).length = n := by
    rw [length_markOldest, List.length_take, Nat.min_eq_left longest.le_length]
  rw [moves.ingress_eq, moves.egress_eq, moveEntriesIngressToEgressList, splitReady_eq longest]
  generalize markOldest ListEntry.markIngressOverflow (ingress.length - maxIngress)
    (ingress.take n) = ready at length
  cases ready with
  | nil =>
    have none : n = 0 := length.symm
    rw [if_pos none]
  | cons first ready =>
    have nonempty : n ≠ 0 := by
      rintro rfl
      cases length
    dsimp only
    rw [if_neg nonempty, handleEgressOverflow_eq, List.length_append, length]

end Moves

section Sample

attribute [local instance] maxMloLinks_neZero in
def waitingEntry (status : Status) : ListEntry where
  rxParams := { linkId := 0, mgmtPktCtr := 1, globalTimestamp := 100, durationUs := 0 }
  waitCount := { perLinkCount := fun _ => 1, totalCount := 6 }
  status := { status with waitForFrameOnOtherLinks := true }

/-- The second of two entries waits. -/
theorem moveEntries_movesPrefix_one :
    MovesPrefix 512 256 [waitingEntry { agedOut := true }, waitingEntry {}] [] 1
      (moveEntries 512 256 [waitingEntry { agedOut := true }, waitingEntry {}] []) := by
  refine moveEntries_movesPrefix 512 256 _ [] 1 ⟨fun i below => ?_, ?_⟩ (by decide)
  · obtain rfl : i = 0 := Nat.lt_one_iff.mp below
    exact ⟨_, rfl, .inr rfl⟩
  · rintro ⟨entry, same, beyond | ready⟩
    · exact absurd beyond (by decide)
    · cases same
      exact absurd ready (by decide)

/-- A waiting entry may be moved with ready ones, a list that is too long is left without marks
where no frame is moved, and 2^16 frames are on no list any more. -/
theorem moveEntries_otherwise :
    (moveEntries 512 256 [waitingEntry { olderThanReadyToDeliverFrames := true }] []).egress.length =
        1 ∧
      (moveEntries 512 0 [] [waitingEntry {}]).egress = [waitingEntry {}] ∧
      ((moveEntries 65537 256 (List.replicate 65537 (waitingEntry { agedOut := true })) []).egress =
          [] ∧
        (moveEntries 65537 256 (List.replicate 65537 (waitingEntry { agedOut := true })) []).ingress =
          []) := by
  refine ⟨rfl, rfl, ?_⟩
  have longest : LongestReady (65537 - 65537)
      (List.replicate 65537 (waitingEntry { agedOut := true })) 65537 := by
    constructor
    · intro i below
      refine ⟨_, List.getElem?_replicate_of_lt below, .inr rfl⟩
    · rintro ⟨entry, same, -⟩
      rw [List.getElem?_eq_none (List.length_replicate ..).le] at same
      cases same
  have length : (List.replicate 65537 (waitingEntry { agedOut := true })).length = 65537 :=
    List.length_replicate ..
  generalize List.replicate 65537 (waitingEntry { agedOut := true }) = frames at longest length
  have longest' : LongestReady (frames.length - 65537) frames 65537 := by rwa [length]
  rw [moveEntries_eq longest' (by decide)]
  dsimp only
  rw [if_neg (by decide), if_pos (by decide)]
  exact ⟨rfl, List.drop_eq_nil_of_le length.le⟩

end Sample

end VendorModules.Reo
