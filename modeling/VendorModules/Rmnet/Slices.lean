import VendorModules.Rmnet.Frames

namespace VendorModules.Rmnet

open Lib

variable {memory : Memory} {format : DataFormat}

section Reading

variable {frags rest : List SkbFrag} {first : SkbFrag} {start : Nat}

theorem startFrag_some {offset : Nat} (passed : offset ≤ start)
    (found : startFrag start frags offset = some (first, rest)) :
    gather memory (first :: rest) = (gather memory frags).drop (start - offset) := by
  induction frags generalizing offset with
  | nil => cases found
  | cons frag frags ih =>
    unfold startFrag at found
    split_ifs at found with here
    · cases found
      have fits : start - offset ≤ (frag.read memory).length := by
        rw [Piece.length_read]
        omega
      rw [gather_cons, gather_cons, Piece.read_skip, List.drop_append_of_le_length fits]
    · have behind : (frag.read memory).drop (start - offset) = [] := by
        apply List.drop_eq_nil_of_le
        rw [Piece.length_read]
        omega
      rw [ih (by omega) found, gather_cons, List.drop_append, behind, Piece.length_read,
        List.nil_append]
      congr 1
      omega

theorem startFrag_none {offset : Nat} (passed : offset ≤ start)
    (found : startFrag start frags offset = none) : totalSize frags ≤ start - offset := by
  induction frags generalizing offset with
  | nil => exact Nat.zero_le _
  | cons frag frags ih =>
    unfold startFrag at found
    split_ifs at found with here
    have := ih (by omega) found
    rw [totalSize_cons]
    omega

variable (located : gather memory (first :: rest) = (gather memory frags).drop start)

include located

theorem read_first_take {n : Nat} (fits : n ≤ first.size) :
    (first.read memory).take n = ((gather memory frags).drop start).take n := by
  rw [← located, gather_cons, List.take_append_of_le_length (by simpa using fits)]

omit located in
theorem skbCopyBits_eq (len : Nat) :
    skbCopyBits memory frags start len =
      if start + len ≤ (gather memory frags).length then
        some (((gather memory frags).drop start).take len) else none := by
  simp only [skbCopyBits, length_gather]

theorem mapHeader_eq :
    mapHeader memory frags first start = headerOf ((gather memory frags).drop start) := by
  have bytes : (if first.size ≥ sizeofMapHeader then
        some ((first.read memory).take sizeofMapHeader)
      else skbCopyBits memory frags start sizeofMapHeader) =
      if sizeofMapHeader ≤ ((gather memory frags).drop start).length then
        some (((gather memory frags).drop start).take sizeofMapHeader) else none := by
    split_ifs with inFirst there there
    · rw [read_first_take located inFirst]
    · refine absurd ?_ there
      rw [← located, gather_cons, List.length_append, Piece.length_read]
      omega
    · rw [skbCopyBits_eq, if_pos]
      simp only [List.length_drop, sizeofMapHeader] at there ⊢
      omega
    · rw [skbCopyBits_eq, if_neg]
      simp only [List.length_drop, sizeofMapHeader] at there ⊢
      omega
  unfold mapHeader
  simp only [bytes]
  generalize (gather memory frags).drop start = stream
  rcases stream with _ | ⟨_, _ | ⟨_, _ | ⟨_, _ | ⟨_, _⟩⟩⟩⟩
  · rfl
  · rfl
  · rfl
  · rfl
  · simp [sizeofMapHeader, headerOf]

theorem typeByte_eq :
    typeByte memory frags first start =
      ((gather memory frags).drop start)[sizeofMapHeader]? := by
  unfold typeByte
  split_ifs with inFirst
  · rw [← located, gather_cons, List.getElem?_append_left]
    rw [Piece.length_read]
    omega
  · rw [skbCopyBits_eq, List.getElem?_drop]
    split_ifs with there
    · rw [Option.bind_some, List.head?_take, List.head?_drop]
      simp
    · rw [List.getElem?_eq_none (by omega)]
      rfl

end Reading

section Adding

variable {alloc : Nat → Bool} {frags added : List SkbFrag} {pktLen missing i : Nat}

theorem addFrags_none (refused : addFrags alloc frags pktLen i = none) :
    ∃ j, alloc j = false := by
  induction frags generalizing pktLen i with
  | nil => cases refused
  | cons frag frags ih =>
    unfold addFrags at refused
    split_ifs at refused with done unallocated
    · exact ⟨i, by simpa using unallocated⟩
    · exact ih (Option.map_eq_none_iff.mp refused)

theorem addFrags_some (found : addFrags alloc frags pktLen i = some (added, missing)) :
    gather memory added = (gather memory frags).take pktLen ∧
      totalSize added = min pktLen (totalSize frags) ∧
      missing = pktLen - totalSize frags := by
  induction frags generalizing pktLen i added with
  | nil =>
    cases found
    simp
  | cons frag frags ih =>
    unfold addFrags at found
    split_ifs at found with done unallocated
    · cases found
      simp [done]
    · obtain ⟨⟨added', missing'⟩, found', same⟩ := Option.map_eq_some_iff.mp found
      cases same
      obtain ⟨bytes, size, short⟩ := ih found'
      refine ⟨?_, ?_, ?_⟩
      · rw [gather_cons, gather_cons, Piece.read_cut memory frag (Nat.min_le_left _ _), bytes,
          List.take_append, Piece.length_read]
        congr 1
        · rcases Nat.le_total frag.size pktLen with fits | cut
          · rw [Nat.min_eq_left fits, List.take_of_length_le (by simp),
              List.take_of_length_le (by simpa using fits)]
          · rw [Nat.min_eq_right cut]
        · congr 1
          omega
      · simp only [totalSize_cons, Piece.size_cut, size]
        omega
      · rw [short, totalSize_cons]
        omega

end Adding

def FrameAlloc.Refuses (alloc : FrameAlloc) : Prop :=
  alloc.descriptor = false ∨ ∃ i, alloc.frag i = false

/-- What a call of `rmnet_frag_deaggregate_one` comes to where the rest of the stream is
as given. -/
inductive Deaggregates (memory : Memory) (format : DataFormat) (rest : List UInt8)
    (priority : Nat) (alloc : FrameAlloc) (deagg : Deaggregation) :
    Deaggregation × Option Nat → Prop
  /-- There is no frame, or an empty one. -/
  | ended (unknown : frameLen format rest = none) (bare : ¬ BareHeader format rest) :
      Deaggregates memory format rest priority alloc deagg (deagg, none)
  | refused (refuses : alloc.Refuses) :
      Deaggregates memory format rest priority alloc deagg (deagg, none)
  /-- The descriptor goes back for want of bytes or of memory. -/
  | dropped {desc : Nat} {pool : Pool}
      (got : deagg.pool.get alloc.descriptor = some (desc, pool))
      (short : (∃ len, frameLen format rest = some len ∧ rest.length < len) ∨ alloc.Refuses) :
      Deaggregates memory format rest priority alloc deagg
        ({ deagg with pool := pool.recycle desc }, none)
  /-- The descriptor is kept. -/
  | kept {desc : Nat} {pool : Pool}
      (got : deagg.pool.get alloc.descriptor = some (desc, pool))
      (bare : BareHeader format rest) :
      Deaggregates memory format rest priority alloc deagg ({ deagg with pool := pool }, none)
  | taken {desc : Nat} {pool : Pool} {added : List SkbFrag} {len : Nat}
      (got : deagg.pool.get alloc.descriptor = some (desc, pool))
      (found : frameLen format rest = some len) (fits : len ≤ rest.length)
      (bytes : gather memory added = rest.take len) (size : totalSize added = len) :
      Deaggregates memory format rest priority alloc deagg
        ({ pool := pool
           list := deagg.list ++
             [{ id := desc, frags := added, len := totalSize added, priority := priority }] },
          some len)

theorem deaggregateOne_deaggregates (frags : List SkbFrag) (priority : Nat)
    (alloc : FrameAlloc) (deagg : Deaggregation) (start : Nat) :
    Deaggregates memory format ((gather memory frags).drop start) priority alloc deagg
      (deaggregateOne memory format frags priority alloc deagg start) := by
  unfold deaggregateOne
  cases located : startFrag start frags 0 with
  | none =>
    have empty : (gather memory frags).drop start = [] := by
      have := startFrag_none (Nat.zero_le start) located
      exact List.drop_eq_nil_of_le (by simpa using this)
    rw [empty]
    refine .ended rfl fun bare => ?_
    have := bare.1
    simp [sizeofMapHeader] at this
  | some found =>
    obtain ⟨first, behind⟩ := found
    have stream : gather memory (first :: behind) = (gather memory frags).drop (start - 0) :=
      startFrag_some (Nat.zero_le start) located
    rw [Nat.sub_zero] at stream
    have size : totalSize (first :: behind) = ((gather memory frags).drop start).length := by
      rw [← stream, length_gather]
    simp only [mapHeader_eq stream, typeByte_eq stream]
    generalize (gather memory frags).drop start = rest at stream size ⊢
    cases header : headerOf rest with
    | none =>
      refine .ended (by simp [frameLen, header]) fun bare => ?_
      obtain ⟨maph, there, -⟩ := bare.2
      simp [header] at there
    | some maph =>
      simp only
      split_ifs with empty
      · refine .ended (by simp [frameLen, header, empty]) fun bare => ?_
        obtain ⟨maph', there, nonempty, -⟩ := bare.2
        rw [header, Option.some.injEq] at there
        exact nonempty (there ▸ empty)
      · cases got : deagg.pool.get alloc.descriptor with
        | none =>
          refine .refused (.inl ?_)
          unfold Pool.get at got
          split at got
          · cases got
          · simpa using got
        | some got' =>
          obtain ⟨desc, pool⟩ := got'
          have same : frameLen format rest =
              packetLen format maph rest[sizeofMapHeader]? := by
            simp [frameLen, header, empty]
          cases length : packetLen format maph rest[sizeofMapHeader]? with
          | none => exact .kept got (bareHeader_of_packetLen header empty length)
          | some pktLen =>
            rw [length] at same
            cases adding : addFrags alloc.frag (first :: behind) pktLen 0 with
            | none =>
              simp only [adding]
              exact .dropped got (.inr (.inr (addFrags_none adding)))
            | some adding' =>
              obtain ⟨added, missing⟩ := adding'
              obtain ⟨bytes, added', short⟩ := @addFrags_some memory _ _ _ _ _ _ adding
              rw [size] at added' short
              simp only [adding]
              split_ifs with incomplete
              · exact .dropped got (.inl ⟨pktLen, same, by omega⟩)
              · have whole : totalSize added = pktLen := by omega
                rw [stream] at bytes
                rw [whole]
                rw [← whole]
                exact .taken got (whole ▸ same) (by omega) (whole ▸ bytes) rfl

theorem frameLen_of_bareHeader {stream : List UInt8} (bare : BareHeader format stream) :
    frameLen format stream = none := by
  obtain ⟨maph, header, nonempty, unknown⟩ := packetLen_of_bareHeader bare
  simp [frameLen, header, nonempty, unknown]

/-- The descriptors hold the first frames of a stream, all of them unless an allocation
fails. -/
structure Slices (memory : Memory) (format : DataFormat) (stream : List UInt8)
    (priority : Nat) (alloc : Nat → FrameAlloc) (new : List FrameDesc) : Prop where
  bytes : new.map (fun desc => gather memory desc.frags) =
    (frames format stream).take new.length
  stops : new.length < (frames format stream).length → (alloc new.length).Refuses
  filled : ∀ desc ∈ new, desc.len = totalSize desc.frags ∧ desc.priority = priority

structure Run (memory : Memory) (format : DataFormat) (stream : List UInt8) (priority : Nat)
    (alloc : Nat → FrameAlloc) (deagg deagg' : Deaggregation) (new : List FrameDesc)
    (lost : List Nat) : Prop where
  appended : deagg'.list = deagg.list ++ new
  slices : Slices memory format stream priority alloc new
  conserves : deagg.pool.Conserves deagg'.pool (new.map FrameDesc.id ++ lost)
  kept : lost ≠ [] → BareHeader format (remainder format stream)
  keeps : (∀ k, ¬ (alloc k).Refuses) → BareHeader format (remainder format stream) → lost ≠ []

section Runs

variable {stream : List UInt8} {priority : Nat} {alloc : Nat → FrameAlloc}
variable {deagg deagg' : Deaggregation}

theorem Slices.nil (stops : 0 < (frames format stream).length → (alloc 0).Refuses) :
    Slices memory format stream priority alloc [] where
  bytes := rfl
  stops := stops
  filled _ member := nomatch member

theorem Run.stop (conserves : deagg.pool.Conserves deagg'.pool [])
    (same : deagg'.list = deagg.list)
    (why : (alloc 0).Refuses ∨ ((∀ len, frameLen format stream = some len →
      stream.length < len) ∧ ¬ BareHeader format stream)) :
    Run memory format stream priority alloc deagg deagg' [] [] where
  appended := by simp [same]
  slices := .nil fun some => by
    rcases why with refuses | ⟨short, -⟩
    · exact refuses
    · simp [frames_nil short] at some
  conserves := conserves
  kept none := absurd rfl none
  keeps succeed bare := by
    rcases why with refuses | ⟨short, ended⟩
    · exact absurd refuses (succeed 0)
    · rw [remainder_nil short] at bare
      exact absurd bare ended

theorem Run.keep {desc : Nat} {pool : Pool} {allocated : Bool}
    (got : deagg.pool.get allocated = some (desc, pool)) (bare : BareHeader format stream) :
    Run memory format stream priority alloc deagg { deagg with pool := pool } [] [desc] := by
  have short : ∀ len, frameLen format stream = some len → stream.length < len := by
    simp [frameLen_of_bareHeader bare]
  refine ⟨by simp, .nil fun some => ?_, .of_get got, fun _ => ?_, fun _ _ => by simp⟩
  · simp [frames_nil short] at some
  · rw [remainder_nil short]
    exact bare

theorem Run.next {desc : FrameDesc} {pool : Pool} {allocated : Bool} {len : Nat}
    {new : List FrameDesc} {lost : List Nat}
    (got : deagg.pool.get allocated = some (desc.id, pool))
    (found : frameLen format stream = some len) (fits : len ≤ stream.length)
    (bytes : gather memory desc.frags = stream.take len)
    (filled : desc.len = totalSize desc.frags ∧ desc.priority = priority)
    (run : Run memory format (stream.drop len) priority (fun k => alloc (k + 1))
      { pool := pool, list := deagg.list ++ [desc] } deagg' new lost) :
    Run memory format stream priority alloc deagg deagg' (desc :: new) lost where
  appended := by simpa using run.appended
  slices := by
    refine ⟨?_, fun short => ?_, List.forall_mem_cons.mpr ⟨filled, run.slices.filled⟩⟩
    · rw [frames_cons found fits, List.map_cons, List.length_cons, List.take_succ_cons, bytes,
        run.slices.bytes]
    · rw [frames_cons found fits] at short
      exact run.slices.stops (by simpa using short)
  conserves := (Pool.Conserves.of_get got).trans run.conserves
  kept some := by
    rw [remainder_cons found fits]
    exact run.kept some
  keeps succeed bare := by
    rw [remainder_cons found fits] at bare
    exact run.keeps (fun k => succeed (k + 1)) bare

end Runs

theorem deaggregate_run (frags : List SkbFrag) (priority : Nat) (alloc : Nat → FrameAlloc)
    (limit : Nat) (deagg : Deaggregation) (start frame : Nat) (positive : 0 < limit)
    (enough : totalSize frags < start + limit) :
    ∃ deagg' new lost,
      deaggregate memory format frags priority alloc limit deagg start frame = some deagg' ∧
      Run memory format ((gather memory frags).drop start) priority
        (fun k => alloc (frame + k)) deagg deagg' new lost := by
  induction limit generalizing deagg start frame with
  | zero => omega
  | succ limit ih =>
    simp only [deaggregate]
    split_ifs with inside
    · have step : Deaggregates memory format _ _ _ _ _ :=
        deaggregateOne_deaggregates frags priority (alloc frame) deagg start
      generalize deaggregateOne memory format frags priority (alloc frame) deagg start =
        outcome at step
      cases step with
      | ended unknown bare =>
        exact ⟨_, _, _, rfl, .stop (.refl _) rfl (.inr ⟨by simp [unknown], bare⟩)⟩
      | refused refuses => exact ⟨_, _, _, rfl, .stop (.refl _) rfl (.inl refuses)⟩
      | dropped got short =>
        refine ⟨_, _, _, rfl, .stop (Pool.Conserves.of_get got).recycle rfl ?_⟩
        rcases short with ⟨len, found, short⟩ | refuses
        · refine .inr ⟨fun len' found' => ?_, fun bare => ?_⟩
          · rw [found, Option.some.injEq] at found'
            exact found' ▸ short
          · simp [frameLen_of_bareHeader bare] at found
        · exact .inl refuses
      | kept got bare => exact ⟨_, _, _, rfl, .keep got bare⟩
      | taken got found fits bytes size =>
        rename_i desc pool added len
        have := frameLen_ge found
        simp only [sizeofMapHeader] at this
        obtain ⟨deagg', new, lost, returned, run⟩ := ih
          { pool := pool, list := deagg.list ++ [⟨desc, added, totalSize added, priority⟩] }
          (start + len) (frame + 1) (by omega) (by omega)
        rw [← List.drop_drop] at run
        refine ⟨deagg', ⟨desc, added, totalSize added, priority⟩ :: new, lost, returned,
          .next got found fits bytes ⟨rfl, rfl⟩ ?_⟩
        simpa [Nat.add_assoc, Nat.add_comm 1] using run
    · have none : (gather memory frags).drop start = [] :=
        List.drop_eq_nil_of_le (by simpa using inside)
      rw [none]
      refine ⟨deagg, [], [], rfl, .stop (.refl _) rfl (.inr ⟨by simp [frameLen, headerOf], ?_⟩)⟩
      intro bare
      have := bare.1
      simp [sizeofMapHeader] at this

/-- Of the buffer with these fragments, the frames are sliced and every descriptor is
accounted for, whatever the allocations and whatever the pool and the list hold before. -/
def Deaggregated (memory : Memory) (format : DataFormat) (frags : List SkbFrag)
    (priority : Nat) : Prop :=
  ∀ (alloc : Nat → FrameAlloc) (deagg : Deaggregation), ∃ deagg' new,
    deaggregate memory format frags priority alloc (totalSize frags + 1) deagg 0 0 =
      some deagg' ∧
    deagg'.list = deagg.list ++ new ∧
    Slices memory format (gather memory frags) priority alloc new ∧
    deagg.pool.Conserves deagg'.pool (new.map FrameDesc.id)

theorem not_deaggregated_of_bareHeader {frags : List SkbFrag} {priority : Nat}
    (bare : BareHeader format (remainder format (gather memory frags))) :
    ¬ Deaggregated memory format frags priority := by
  intro deaggregated
  -- with memory for everything, the walk gets to the bare header
  let all : Nat → FrameAlloc := fun _ => { descriptor := true, frag := fun _ => true }
  let empty : Deaggregation := { pool := { freeList := [], poolSize := 0 }, list := [] }
  obtain ⟨deagg', new, returned, appended, -, conserves⟩ := deaggregated all empty
  obtain ⟨deagg'', new', lost, returned', run⟩ := @deaggregate_run memory format frags
    priority all (totalSize frags + 1) empty 0 0 (by omega) (by omega)
  rw [returned, Option.some.injEq] at returned'
  subst returned'
  have same : new = new' := by simpa [appended] using run.appended
  subst same
  have kept := run.keeps (by simp [FrameAlloc.Refuses, all]) (by simpa using bare)
  have balance := conserves.length
  have balance' := run.conserves.length
  rw [List.length_append] at balance'
  have := List.length_pos_of_ne_nil kept
  omega

theorem deaggregated_of_not_bareHeader {frags : List SkbFrag} {priority : Nat}
    (ended : ¬ BareHeader format (remainder format (gather memory frags))) :
    Deaggregated memory format frags priority := by
  intro alloc deagg
  obtain ⟨deagg', new, lost, returned, run⟩ := @deaggregate_run memory format frags
    priority alloc (totalSize frags + 1) deagg 0 0 (by omega) (by omega)
  have none : lost = [] := by
    by_contra kept
    exact ended (by simpa using run.kept kept)
  refine ⟨deagg', new, returned, run.appended, by simpa using run.slices, ?_⟩
  simpa [none] using run.conserves

/-- Exactly the streams that end in a bare header lose a descriptor. -/
theorem deaggregated_iff (memory : Memory) (format : DataFormat) (frags : List SkbFrag)
    (priority : Nat) :
    Deaggregated memory format frags priority ↔
      ¬ BareHeader format (remainder format (gather memory frags)) :=
  ⟨fun deaggregated bare => not_deaggregated_of_bareHeader bare deaggregated,
    deaggregated_of_not_bareHeader⟩

section Sample

abbrev headerPage : Memory := fun _ off => if off = 3 then 4 else 0

/-- The buffer ends behind the header, in version 5 format. -/
theorem headerPage_not_deaggregated :
    ¬ Deaggregated headerPage { mapCksumv4 := false, mapCksumv5 := true, coalesce := false }
      [⟨0, 0, 4⟩] 0 :=
  not_deaggregated_of_bareHeader
    ⟨by decide, .ofBytes 0 0 0 4, by decide, by decide, by decide, by decide⟩

end Sample

end VendorModules.Rmnet
