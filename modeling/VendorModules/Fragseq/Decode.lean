import VendorModules.Fragseq.Defrag

namespace VendorModules.Fragseq

open Lib

theorem ok_bind {α β : Type} (a : α) (next : α → Except Failure β) :
    (Except.ok a >>= next) = next a := rfl

structure Sequence where
  id : UInt8
  fragId : UInt8
  lead : List UInt8
  rest : List (List UInt8)
  tail : List UInt8

namespace Sequence

def bytes (sequence : Sequence) : List UInt8 :=
  encodeUnit sequence.id sequence.lead ++ encodeUnits sequence.fragId sequence.rest

def buffer (sequence : Sequence) : Buffer := sequence.bytes ++ sequence.tail

/-- The lead fragment and the others are as the standard has them, and whole units that
do not go on with the fragment identifier follow. -/
structure Valid (sequence : Sequence) : Prop where
  more : sequence.rest ≠ []
  sized : WellSized (sequence.lead :: sequence.rest)
  units : ValidUnits sequence.tail
  ends : sequence.tail.head? ≠ some sequence.fragId

structure Framed (sequence : Sequence) : Prop where
  more : sequence.rest ≠ []
  sized : WellSized (sequence.lead :: sequence.rest)
  whole : StartsWhole sequence.tail
  ends : sequence.tail.head? ≠ some sequence.fragId

theorem Valid.framed {sequence : Sequence} (valid : sequence.Valid) : sequence.Framed where
  more := valid.more
  sized := valid.sized
  whole := valid.units.head
  ends := valid.ends

end Sequence

section Successor

variable {buff : Buffer} {before body : List UInt8} {id fragId : UInt8} {curr : Nat}

theorem successorFrag_eq {behind : List UInt8}
    (shape : buff = before ++ (encodeUnit id body ++ behind)) (here : before.length = curr)
    (fits : body.length ≤ 255) :
    successorFrag fragId curr buff =
      if behind = [] then .ok none
      else
        match splitUnit behind with
        | none => .error (.status .eProto)
        | some (nextId, next, _) =>
          if nextId ≠ fragId then .ok none
          else if body.length ≠ 255 then .error (.status .eProto)
          else if next.length = 0 then .error (.status .eProto)
          else .ok (some
            { pos := curr + (2 + body.length)
              totalLen := 2 + next.length
              payloadLen := next.length }) := by
  have size : buff.length = curr + (2 + body.length) + behind.length := by
    rw [shape]
    simp only [List.length_append, length_encodeUnit, here]
    omega
  have currLen : loadByte buff (curr + 1) = .ok (UInt8.ofNat body.length) := by
    refine readCell_append (before ++ [id]) (body ++ behind) ?_ (by simp [here])
    simp [shape, encodeUnit]
  have bodyLen := toNat_ofNat_length fits
  rw [successorFrag, if_neg (by omega), if_neg (by simp only [elemunitHdrLen]; omega), currLen,
    ok_bind]
  simp only [bodyLen, elemunitHdrLen, elemunitMaxPayloadLen]
  rw [if_neg (by omega)]
  by_cases empty : behind = []
  · rw [if_pos empty, if_pos (by simpa [empty] using size)]
  · have some_behind := List.length_pos_of_ne_nil empty
    rw [if_neg empty, if_neg (by omega)]
    rcases behind with _ | ⟨nextId, _ | ⟨nextLen, after⟩⟩
    · exact absurd rfl empty
    · simp only [List.length_singleton] at size
      rw [if_pos (by omega)]
      rfl
    · have idAt : loadByte buff (curr + (2 + body.length)) = .ok nextId := by
        refine readCell_append (before ++ encodeUnit id body) (nextLen :: after) ?_
          (by simp; omega)
        simp [shape]
      have lenAt : loadByte buff (curr + (2 + body.length) + 1) = .ok nextLen := by
        refine readCell_append (before ++ encodeUnit id body ++ [nextId]) after ?_
          (by simp; omega)
        simp [shape]
      simp only [List.length_cons] at size
      rw [if_neg (by omega), lenAt, ok_bind, splitUnit]
      by_cases there : nextLen.toNat ≤ after.length
      · have length : (after.take nextLen.toNat).length = nextLen.toNat := by
          rw [List.length_take, Nat.min_eq_left there]
        rw [if_neg (by omega), idAt, ok_bind, if_pos there]
        simp only [length]
      · rw [if_pos (by omega), if_neg there]

theorem successorFrag_frag {next after : List UInt8}
    (shape : buff = before ++ (encodeUnit id body ++ (encodeUnit fragId next ++ after)))
    (here : before.length = curr) (full : body.length = 255)
    (nonempty : 0 < next.length) (fits : next.length ≤ 255) :
    successorFrag fragId curr buff = .ok (some
      { pos := curr + 257
        totalLen := 2 + next.length
        payloadLen := next.length }) := by
  have some_next : encodeUnit fragId next ++ after ≠ [] := List.cons_ne_nil _ _
  rw [successorFrag_eq shape here (by omega), if_neg some_next, splitUnit_encodeUnit fits]
  dsimp only
  rw [if_neg (not_not.mpr rfl), if_neg (not_not.mpr full), if_neg (by omega), full]

theorem successorFrag_end {tail : List UInt8}
    (shape : buff = before ++ (encodeUnit id body ++ tail))
    (here : before.length = curr) (fits : body.length ≤ 255) (whole : StartsWhole tail)
    (ends : tail.head? ≠ some fragId) : successorFrag fragId curr buff = .ok none := by
  rw [successorFrag_eq shape here fits]
  rcases whole with rfl | ⟨nextId, next, after, nextFits, rfl⟩
  · rw [if_pos rfl]
  · have other : nextId ≠ fragId := by
      rintro rfl
      exact ends rfl
    have some_next : encodeUnit nextId next ++ after ≠ [] := List.cons_ne_nil _ _
    rw [if_neg some_next, splitUnit_encodeUnit nextFits]
    dsimp only
    rw [if_pos other]

theorem fragseqInfoLoop_units {rest : List (List UInt8)} {tail : List UInt8}
    (shape : buff = before ++ (encodeUnit id body ++ (encodeUnits fragId rest ++ tail)))
    (here : before.length = curr) (sized : WellSized (body :: rest))
    (whole : StartsWhole tail) (ends : tail.head? ≠ some fragId) (info : FragseqInfo) :
    fragseqInfoLoop fragId buff curr info = .ok
      { totalLen := info.totalLen + (encodeUnits fragId rest).length
        payloadLen := info.payloadLen + rest.flatten.length } := by
  induction rest generalizing before body id curr info with
  | nil =>
    have ended := successorFrag_end (by simpa using shape) here sized.head_fits whole ends
    unfold fragseqInfoLoop
    split <;> simp_all
  | cons next rest ih =>
    have sizedNext := sized.tail (by simp)
    have full := sized.head_full (by simp)
    have found := successorFrag_frag (by simpa using shape) here full
      sizedNext.head_pos sizedNext.head_fits
    unfold fragseqInfoLoop
    split
    next failed => simp [found] at failed
    next none => simp [found] at none
    next successor same =>
      rw [found] at same
      cases same
      rw [@ih (before ++ encodeUnit id body) next fragId (curr + 257)
        (by simpa using shape) (by simp [here, full]) sizedNext]
      simp only [encodeUnits_cons, List.length_append, length_encodeUnit,
        List.flatten_cons]
      congr 2 <;> omega

end Successor

/-- `wlan_get_elemsubelem_fragseq_info` on a sequence gives its length and that of
its bodies, less the ID extension. -/
theorem fragseqInfo_sequence {sequence : Sequence} (framed : sequence.Framed)
    {isSubelem : Bool} {subelemFragId : UInt8}
    (frag : elemunitFragId isSubelem subelemFragId = sequence.fragId) :
    fragseqInfo isSubelem subelemFragId (some sequence.buffer) = .ok (some
      { totalLen := sequence.bytes.length
        payloadLen :=
          (if hasIdExt isSubelem sequence.id then 254 else 255) +
            sequence.rest.flatten.length }) := by
  obtain ⟨id, fragId, lead, rest, tail⟩ := sequence
  obtain ⟨more, sized, whole, ends⟩ := framed
  simp only at more sized whole ends frag
  obtain ⟨next, rest, rfl⟩ := List.exists_cons_of_ne_nil more
  have full := sized.head_full more
  have sizedNext := sized.tail more
  have shape : Sequence.buffer ⟨id, fragId, lead, next :: rest, tail⟩ =
      [] ++ (encodeUnit id lead ++ (encodeUnit fragId next ++
        (encodeUnits fragId rest ++ tail))) := by
    simp [Sequence.buffer, Sequence.bytes]
  generalize Sequence.buffer ⟨id, fragId, lead, next :: rest, tail⟩ = buff at shape ⊢
  have found : successorFrag fragId 0 buff = .ok (some
      { pos := 0 + 257
        totalLen := 2 + next.length
        payloadLen := next.length }) :=
    successorFrag_frag shape rfl full sizedNext.head_pos sizedNext.head_fits
  have size : buff.length = 257 + (next.length + 2) +
      ((encodeUnits fragId rest).length + tail.length) := by
    rw [shape]
    simp only [List.length_append, length_encodeUnit, full, List.length_nil]
    omega
  have leadLen : loadByte buff 1 = .ok (UInt8.ofNat lead.length) :=
    readCell_append [id] (lead ++ (encodeUnit fragId next ++
      (encodeUnits fragId rest ++ tail))) (by simp [shape, encodeUnit]) rfl
  have leadId : loadByte buff 0 = .ok id :=
    readCell_append [] (UInt8.ofNat lead.length :: lead ++ (encodeUnit fragId next ++
      (encodeUnits fragId rest ++ tail))) (by simp [shape, encodeUnit]) rfl
  have leadNat : (UInt8.ofNat lead.length).toNat = 255 := by
    rw [toNat_ofNat_length (by omega), full]
  have payload : leadPayloadLen isSubelem id (UInt8.ofNat lead.length) =
      if hasIdExt isSubelem id then 254 else 255 := by
    simp only [leadPayloadLen, leadNat]
  unfold fragseqInfo
  simp only [elemunitHdrLen, leadLen, leadId, ok_bind, leadNat, frag, found, payload]
  rw [if_neg (by omega), if_neg (by omega), if_neg (by omega)]
  rw [@fragseqInfoLoop_units buff (encodeUnit id lead) next fragId fragId (0 + 257) rest
    tail (by simpa using shape) (by simp [full]) sizedNext whole ends]
  simp only [ok_bind, Sequence.bytes, encodeUnits_cons, List.length_append,
    length_encodeUnit, full, List.flatten_cons]
  congr 3
  · omega
  · omega

section Defrag

variable {fragId : UInt8} {source : Buffer} {rest : List (List UInt8)}
  {tail : List UInt8} {state : DefragState}

theorem defragLoop_copy {before done room after : List UInt8}
    (shape : source = before ++ (encodeUnits fragId rest ++ tail))
    (here : before.length = state.curr) (fits : ∀ body ∈ rest, body.length ≤ 255)
    (left : state.remLen = (encodeUnits fragId rest ++ tail).length)
    (pending : 0 < state.remLen) (ends : tail.head? ≠ some fragId)
    (dest : state.dest = done ++ (room ++ after)) (there : done.length = state.dst)
    (size : room.length = rest.flatten.length) :
    ∃ final, defragLoop false fragId source state = .ok final ∧
      final.dest = done ++ (rest.flatten ++ after) ∧
        final.payloadLen = state.payloadLen + rest.flatten.length := by
  induction rest generalizing before done room state with
  | nil =>
    obtain ⟨head, more, rfl⟩ := @List.exists_cons_of_ne_nil _ tail (by
      rintro rfl
      simp [left] at pending)
    have next : loadByte source state.curr = .ok head :=
      readCell_append before more (by simpa using shape) here
    refine ⟨state, ?_, ?_, by simp⟩
    · rw [defragLoop]
      simp only [Bool.false_eq_true, if_false, next, ok_bind]
      rw [if_neg (by simpa using ends)]
    · obtain rfl : room = [] := by simpa using size
      simpa using dest
  | cons body rest ih =>
    have bodyFits := fits body (by simp)
    have nat := toNat_ofNat_length bodyFits
    have next : loadByte source state.curr = .ok fragId :=
      readCell_append before (UInt8.ofNat body.length :: body ++
        (encodeUnits fragId rest ++ tail)) (by simp [shape, encodeUnit]) here
    have len : loadByte source (state.curr + 1) = .ok (UInt8.ofNat body.length) :=
      readCell_append (before ++ [fragId]) (body ++ (encodeUnits fragId rest ++ tail))
        (by simp [shape, encodeUnit]) (by simp [here])
    have bytes : load source (state.curr + 2) body.length = .ok body :=
      readAt_append (before ++ [fragId, UInt8.ofNat body.length])
        (encodeUnits fragId rest ++ tail) (by simp [shape, encodeUnit])
        (by simp [here]) rfl
    obtain ⟨first, others, rfl, firstSize⟩ : ∃ first others, room = first ++ others ∧
        first.length = body.length := by
      refine ⟨room.take body.length, room.drop body.length,
        (List.take_append_drop _ _).symm, ?_⟩
      simp only [List.flatten_cons, List.length_append] at size
      simp only [List.length_take]
      omega
    have stored : store state.dest body state.dst =
        .ok (done ++ body ++ (others ++ after)) :=
      writeAt_append done first (others ++ after) (by simp [dest]) there firstSize
    have remaining : state.remLen - (2 + body.length) =
        (encodeUnits fragId rest ++ tail).length := by
      simp only [left, encodeUnits_cons, List.length_append, length_encodeUnit]
      omega
    rw [defragLoop]
    simp only [Bool.false_eq_true, if_false, next, ok_bind, if_true, len, nat,
      elemunitHdrLen, bytes, stored]
    have sizeRest : others.length = rest.flatten.length := by
      simp only [List.flatten_cons, List.length_append] at size
      omega
    by_cases ended : state.remLen - (2 + body.length) = 0
    · simp only [ended, dite_true]
      have none : rest = [] := by
        rw [remaining] at ended
        cases rest with
        | nil => rfl
        | cons other rest => simp [encodeUnit] at ended
      subst none
      obtain rfl : others = [] := by simpa using sizeRest
      exact ⟨_, rfl, by simp, by simp⟩
    · simp only [ended, dite_false]
      obtain ⟨final, ran, result, payload⟩ := @ih
        { dest := done ++ body ++ (others ++ after)
          curr := state.curr + (2 + body.length)
          dst := state.dst + body.length
          payloadLen := state.payloadLen + body.length
          remLen := state.remLen - (2 + body.length) }
        (before ++ encodeUnit fragId body) (done ++ body) others
        (by simp [shape]) (by simp [here]; omega)
        (fun other member => fits other (by simp [member])) remaining
        (Nat.pos_of_ne_zero ended) rfl (by simp [there]) sizeRest
      refine ⟨final, ran, by simpa using result, ?_⟩
      simp only [payload, List.flatten_cons, List.length_append]
      omega

/-- Inline mode: the bodies move down over the headers between them, and what the
headers took is left behind the last body. -/
theorem defragLoop_inline {done gap : List UInt8}
    (dest : state.dest = done ++ (gap ++ (encodeUnits fragId rest ++ tail)))
    (there : done.length = state.dst) (here : done.length + gap.length = state.curr)
    (fits : ∀ body ∈ rest, body.length ≤ 255)
    (left : state.remLen = (encodeUnits fragId rest ++ tail).length)
    (pending : 0 < state.remLen) (ends : tail.head? ≠ some fragId) :
    ∃ final slack, defragLoop true fragId source state = .ok final ∧
      final.dest = done ++ (rest.flatten ++ (slack ++ tail)) ∧
        final.payloadLen = state.payloadLen + rest.flatten.length ∧
          final.remLen = tail.length ∧
            (tail ≠ [] → final.dst = done.length + rest.flatten.length ∧
              final.curr = final.dst + slack.length) := by
  induction rest generalizing done gap state with
  | nil =>
    obtain ⟨head, more, rfl⟩ := @List.exists_cons_of_ne_nil _ tail (by
      rintro rfl
      simp [left] at pending)
    have next : loadByte state.dest state.curr = .ok head :=
      readCell_append (done ++ gap) more (by simp [dest]) (by simpa using here)
    refine ⟨state, gap, ?_, by simpa using dest, by simp, by simpa using left,
      fun _ => ⟨by simp [there], by omega⟩⟩
    rw [defragLoop]
    simp only [if_true, next, ok_bind]
    rw [if_neg (by simpa using ends)]
  | cons body rest ih =>
    have bodyFits := fits body (by simp)
    have nat := toNat_ofNat_length bodyFits
    have next : loadByte state.dest state.curr = .ok fragId :=
      readCell_append (done ++ gap) (UInt8.ofNat body.length :: body ++
        (encodeUnits fragId rest ++ tail)) (by simp [dest, encodeUnit])
        (by simpa using here)
    have len : loadByte state.dest (state.curr + 1) = .ok (UInt8.ofNat body.length) :=
      readCell_append (done ++ gap ++ [fragId]) (body ++ (encodeUnits fragId rest ++ tail))
        (by simp [dest, encodeUnit]) (by simp; omega)
    have bytes : load state.dest (state.curr + 2) body.length = .ok body :=
      readAt_append (done ++ gap ++ [fragId, UInt8.ofNat body.length])
        (encodeUnits fragId rest ++ tail) (by simp [dest, encodeUnit])
        (by simp; omega) rfl
    -- the window from the next free place to the end of this fragment
    obtain ⟨first, others, window, firstSize⟩ : ∃ first others,
        gap ++ encodeUnit fragId body = first ++ others ∧
          first.length = body.length := by
      refine ⟨(gap ++ encodeUnit fragId body).take body.length,
        (gap ++ encodeUnit fragId body).drop body.length,
        (List.take_append_drop _ _).symm, ?_⟩
      simp only [List.length_take, List.length_append, length_encodeUnit]
      omega
    have othersSize : others.length = gap.length + 2 := by
      have sizes := congrArg List.length window
      simp only [List.length_append, length_encodeUnit] at sizes
      omega
    have shape : state.dest =
        done ++ first ++ (others ++ (encodeUnits fragId rest ++ tail)) := by
      rw [dest, encodeUnits_cons, List.append_assoc (encodeUnit fragId body),
        ← List.append_assoc gap, window]
      simp
    have stored : store state.dest body state.dst =
        .ok (done ++ body ++ (others ++ (encodeUnits fragId rest ++ tail))) :=
      writeAt_append done first _ shape there firstSize
    have remaining : state.remLen - (2 + body.length) =
        (encodeUnits fragId rest ++ tail).length := by
      simp only [left, encodeUnits_cons, List.length_append, length_encodeUnit]
      omega
    rw [defragLoop]
    simp only [next, ok_bind, if_true, len, nat, elemunitHdrLen, bytes, stored]
    by_cases ended : state.remLen - (2 + body.length) = 0
    · simp only [ended, dite_true]
      rw [remaining, List.length_append, Nat.add_eq_zero_iff] at ended
      obtain rfl : tail = [] := List.length_eq_zero_iff.1 ended.2
      have none : rest = [] := by
        cases rest with
        | nil => rfl
        | cons other rest => simp [encodeUnit] at ended
      subst none
      exact ⟨_, others, rfl, by simp, by simp, rfl, fun more => absurd rfl more⟩
    · simp only [ended, dite_false]
      obtain ⟨final, slack, ran, result, payload, remLen, places⟩ := @ih
        { dest := done ++ body ++ (others ++ (encodeUnits fragId rest ++ tail))
          curr := state.curr + (2 + body.length)
          dst := state.dst + body.length
          payloadLen := state.payloadLen + body.length
          remLen := state.remLen - (2 + body.length) }
        (done ++ body) others rfl (by simp [there])
        (by simp only [List.length_append]; omega)
        (fun other member => fits other (by simp [member])) remaining
        (Nat.pos_of_ne_zero ended)
      refine ⟨final, slack, ran, by simpa using result, ?_, remLen, fun more => ?_⟩
      · simp only [payload, List.flatten_cons, List.length_append]
        omega
      · obtain ⟨dst, curr⟩ := places more
        simp only [List.length_append] at dst
        refine ⟨?_, curr⟩
        simp only [List.flatten_cons, List.length_append]
        omega

end Defrag

namespace Sequence

def extLen (sequence : Sequence) (isSubelem : Bool) : Nat :=
  if hasIdExt isSubelem sequence.id then 1 else 0

def payload (sequence : Sequence) (isSubelem : Bool) : List UInt8 :=
  sequence.lead.drop (sequence.extLen isSubelem) ++ sequence.rest.flatten

def header (sequence : Sequence) (isSubelem : Bool) : List UInt8 :=
  [sequence.id, UInt8.ofNat sequence.lead.length] ++ sequence.lead.take (sequence.extLen isSubelem)

variable {sequence : Sequence} {isSubelem : Bool}

theorem header_payload (sequence : Sequence) (more : List UInt8) :
    encodeUnit sequence.id sequence.lead ++ (sequence.rest.flatten ++ more) =
      sequence.header isSubelem ++ (sequence.payload isSubelem ++ more) := by
  simp only [header, payload, encodeUnit, List.cons_append, List.nil_append, List.append_assoc]
  rw [← List.append_assoc (sequence.lead.take _), List.take_append_drop]

theorem Framed.length_header (framed : sequence.Framed) :
    (sequence.header isSubelem).length = elemunitHdrLen + sequence.extLen isSubelem := by
  have full := framed.sized.head_full framed.more
  simp only [header, List.length_append, List.length_take, full, extLen, elemunitHdrLen]
  split <;> rfl

theorem Framed.length_payload (framed : sequence.Framed) :
    (sequence.payload isSubelem).length =
      (if hasIdExt isSubelem sequence.id then 254 else 255) +
        sequence.rest.flatten.length := by
  have full := framed.sized.head_full framed.more
  simp only [payload, extLen, List.length_append, List.length_drop, full]
  split <;> omega

theorem Framed.lead_bytes (framed : sequence.Framed) :
    loadByte sequence.buffer 0 = .ok sequence.id ∧
      loadByte sequence.buffer 1 = .ok (UInt8.ofNat sequence.lead.length) ∧
        (UInt8.ofNat sequence.lead.length).toNat = 255 ∧
          load sequence.buffer (2 + sequence.extLen isSubelem)
            (255 - sequence.extLen isSubelem) =
              .ok (sequence.lead.drop (sequence.extLen isSubelem)) := by
  have full := framed.sized.head_full framed.more
  have shape : sequence.buffer = [sequence.id, UInt8.ofNat sequence.lead.length] ++
      (sequence.lead ++ (encodeUnits sequence.fragId sequence.rest ++ sequence.tail)) := by
    simp [buffer, bytes, encodeUnit]
  refine ⟨?_, ?_, ?_, ?_⟩
  · exact readCell_append [] _ shape rfl
  · exact readCell_append [sequence.id] _ shape rfl
  · rw [toNat_ofNat_length (by omega), full]
  · refine readAt_append ([sequence.id, UInt8.ofNat sequence.lead.length] ++
      sequence.lead.take (sequence.extLen isSubelem))
      (encodeUnits sequence.fragId sequence.rest ++ sequence.tail) ?_ ?_ ?_
    · simp only [shape, List.append_assoc]
      rw [← List.append_assoc (sequence.lead.take _), List.take_append_drop]
    · simp only [List.length_append, List.length_take, full, extLen, List.length_cons,
        List.length_nil]
      split <;> omega
    · simp [full]

theorem Framed.buffer_length (framed : sequence.Framed) :
    sequence.buffer.length - 257 =
      (encodeUnits sequence.fragId sequence.rest ++ sequence.tail).length ∧
        0 < (encodeUnits sequence.fragId sequence.rest ++ sequence.tail).length := by
  have full := framed.sized.head_full framed.more
  obtain ⟨next, rest, same⟩ := List.exists_cons_of_ne_nil framed.more
  simp only [buffer, bytes, List.length_append, length_encodeUnit, full, same,
    encodeUnits_cons]
  omega

theorem Framed.joinFrags_eq (framed : sequence.Framed) {call : DefragCall}
    (frag : call.fragId = sequence.fragId) (dest : Buffer) :
    call.joinFrags sequence.buffer dest = (do
      let copied ← if call.inlineDefrag then .ok dest
        else store dest (sequence.lead.drop (sequence.extLen call.isSubelem)) 0
      let state ← defragLoop call.inlineDefrag sequence.fragId sequence.buffer
        { dest := copied
          curr := 257
          dst := if call.inlineDefrag then 257
            else 255 - sequence.extLen call.isSubelem
          payloadLen := 255 - sequence.extLen call.isSubelem
          remLen :=
            (encodeUnits sequence.fragId sequence.rest ++ sequence.tail).length }
      call.moveResidual state) := by
  obtain ⟨leadId, leadLen, leadNat, leadBytes⟩ :=
    @Framed.lead_bytes sequence call.isSubelem framed
  have payloadLen : leadPayloadLen call.isSubelem sequence.id
      (UInt8.ofNat sequence.lead.length) = 255 - sequence.extLen call.isSubelem := by
    simp only [leadPayloadLen, leadNat, extLen]
    split <;> rfl
  have src : (if hasIdExt call.isSubelem sequence.id then elemunitHdrLen + 1
      else elemunitHdrLen) = 2 + sequence.extLen call.isSubelem := by
    simp only [extLen, elemunitHdrLen]
    split <;> rfl
  have dst : (if call.inlineDefrag = true then 2 + sequence.extLen call.isSubelem else 0) +
      (255 - sequence.extLen call.isSubelem) =
        if call.inlineDefrag = true then 257
        else 255 - sequence.extLen call.isSubelem := by
    have small : sequence.extLen call.isSubelem ≤ 1 := by
      unfold extLen
      split <;> omega
    split <;> omega
  unfold DefragCall.joinFrags
  simp only [leadId, leadLen, ok_bind, payloadLen, src, leadBytes, frag, leadNat, dst]
  simp only [elemunitHdrLen, Nat.reduceAdd, framed.buffer_length.1]

theorem Framed.defragFragseq_copy (framed : sequence.Framed) {call : DefragCall}
    (mode : call.inlineDefrag = false) (frag : call.fragId = sequence.fragId)
    (source : call.fragBuff = some sequence.buffer) {dest : Buffer}
    (target : call.defragBuff = some dest)
    (room : (sequence.payload call.isSubelem).length ≤ dest.length) :
    call.defragFragseq = .ok ((sequence.payload call.isSubelem).length,
      sequence.payload call.isSubelem ++
        dest.drop (sequence.payload call.isSubelem).length) := by
  have pending := framed.buffer_length
  have full := framed.sized.head_full framed.more
  have info := fragseqInfo_sequence framed frag
  have size := @Framed.length_payload sequence call.isSubelem framed
  have ext : sequence.extLen call.isSubelem ≤ 1 := by
    unfold extLen
    split <;> omega
  -- the destination: the lead's part, the part of the other fragments and what stays
  obtain ⟨first, others, after, rfl, firstSize, othersSize⟩ : ∃ first others after,
      dest = first ++ (others ++ after) ∧
        first.length = (sequence.lead.drop (sequence.extLen call.isSubelem)).length ∧
          others.length = sequence.rest.flatten.length := by
    refine ⟨dest.take (sequence.lead.drop (sequence.extLen call.isSubelem)).length,
      (dest.drop (sequence.lead.drop (sequence.extLen call.isSubelem)).length).take
        sequence.rest.flatten.length,
      (dest.drop (sequence.lead.drop (sequence.extLen call.isSubelem)).length).drop
        sequence.rest.flatten.length, ?_, ?_, ?_⟩
    · rw [List.take_append_drop, List.take_append_drop]
    · simp only [payload, List.length_append] at room
      simp only [List.length_take]
      omega
    · simp only [payload, List.length_append] at room
      simp only [List.length_take, List.length_drop] at room ⊢
      omega
  have stored : store (first ++ (others ++ after))
      (sequence.lead.drop (sequence.extLen call.isSubelem)) 0 =
        .ok ([] ++ sequence.lead.drop (sequence.extLen call.isSubelem) ++ (others ++ after)) :=
    writeAt_append [] first (others ++ after) rfl rfl firstSize
  obtain ⟨final, ran, result, total⟩ := @defragLoop_copy sequence.fragId sequence.buffer
    sequence.rest sequence.tail
    { dest := sequence.lead.drop (sequence.extLen call.isSubelem) ++ (others ++ after)
      curr := 257
      dst := 255 - sequence.extLen call.isSubelem
      payloadLen := 255 - sequence.extLen call.isSubelem
      remLen := (encodeUnits sequence.fragId sequence.rest ++ sequence.tail).length }
    (encodeUnit sequence.id sequence.lead)
    (sequence.lead.drop (sequence.extLen call.isSubelem)) others after
    (by simp [buffer, bytes]) (by simp [full])
    (fun body member => framed.sized.fits body (by simp [member])) rfl pending.2
    framed.ends rfl (by simp [full]) othersSize
  have nonempty : (first ++ (others ++ after)).length ≠ 0 := by
    simp only [List.length_append, firstSize, List.length_drop, full]
    omega
  have drop : (first ++ (others ++ after)).drop (sequence.payload call.isSubelem).length =
      after := by
    simp only [payload, List.length_append, ← firstSize, ← othersSize]
    rw [← List.append_assoc, ← List.length_append, List.drop_left]
  have some : sequence.buffer.length ≠ 0 := by
    have bytes := pending.2
    omega
  unfold DefragCall.defragFragseq
  simp only [source, target, mode, info, ok_bind, Bool.false_eq_true, if_false]
  rw [if_neg some, if_neg nonempty, if_neg (by omega), framed.joinFrags_eq frag]
  simp only [mode, Bool.false_eq_true, if_false, stored, ok_bind, List.nil_append, ran,
    DefragCall.moveResidual, false_and, result, total, drop]
  simp only [payload, List.length_append, List.length_drop, full, List.append_assoc]

/-- Defragmenting in place leaves the lead's header, the payload and what followed the
sequence, in this order. -/
theorem Framed.defragFragseq_inline (framed : sequence.Framed) {call : DefragCall}
    (mode : call.inlineDefrag = true) (frag : call.fragId = sequence.fragId)
    (source : call.fragBuff = some sequence.buffer) :
    ∃ slack, call.defragFragseq = .ok ((sequence.payload call.isSubelem).length,
      encodeUnit sequence.id sequence.lead ++
        (sequence.rest.flatten ++ (sequence.tail ++ slack))) := by
  have pending := framed.buffer_length
  have full := framed.sized.head_full framed.more
  have info := fragseqInfo_sequence framed frag
  have some : sequence.buffer.length ≠ 0 := by
    have bytes := pending.2
    omega
  obtain ⟨final, gap, ran, result, total, remLen, places⟩ := @defragLoop_inline
    sequence.fragId sequence.buffer sequence.rest sequence.tail
    { dest := sequence.buffer
      curr := 257
      dst := 257
      payloadLen := 255 - sequence.extLen call.isSubelem
      remLen := (encodeUnits sequence.fragId sequence.rest ++ sequence.tail).length }
    (encodeUnit sequence.id sequence.lead) []
    (by simp [buffer, bytes]) (by simp [full]) (by simp [full])
    (fun body member => framed.sized.fits body (by simp [member])) rfl pending.2
    framed.ends
  have payloadLen : final.payloadLen = (sequence.payload call.isSubelem).length := by
    rw [total]
    simp only [payload, List.length_append, List.length_drop, full]
  suffices moved : ∃ slack, call.moveResidual final =
      .ok ((sequence.payload call.isSubelem).length,
        encodeUnit sequence.id sequence.lead ++
          (sequence.rest.flatten ++ (sequence.tail ++ slack))) by
    obtain ⟨slack, moved⟩ := moved
    refine ⟨slack, ?_⟩
    unfold DefragCall.defragFragseq
    simp only [source, mode, info, ok_bind, if_true]
    rw [if_neg some, framed.joinFrags_eq frag]
    simp only [mode, if_true, ok_bind, ran, moved]
  by_cases more : sequence.tail = []
  · refine ⟨gap, ?_⟩
    simp [DefragCall.moveResidual, remLen, more, result, payloadLen]
  · obtain ⟨dst, curr⟩ := places more
    have left : final.remLen ≠ 0 := by
      rw [remLen]
      simpa using more
    have bytes : load final.dest final.curr final.remLen = .ok sequence.tail :=
      readAt_append (encodeUnit sequence.id sequence.lead ++ sequence.rest.flatten ++ gap)
        [] (by simp [result]) (by simp only [List.length_append, curr, dst]) remLen.symm
    -- the residual moves down over the gap before it
    obtain ⟨first, slack, window, firstSize⟩ : ∃ first slack,
        gap ++ sequence.tail = first ++ slack ∧ first.length = sequence.tail.length := by
      refine ⟨(gap ++ sequence.tail).take sequence.tail.length,
        (gap ++ sequence.tail).drop sequence.tail.length,
        (List.take_append_drop _ _).symm, ?_⟩
      simp only [List.length_take, List.length_append]
      omega
    have stored : store final.dest sequence.tail final.dst =
        .ok (encodeUnit sequence.id sequence.lead ++ sequence.rest.flatten ++
          sequence.tail ++ slack) :=
      writeAt_append _ first slack (by simp [result, window])
        (by simp only [List.length_append, dst]) firstSize
    refine ⟨slack, ?_⟩
    simp [DefragCall.moveResidual, mode, left, bytes, ok_bind, stored, payloadLen]

end Sequence

end VendorModules.Fragseq
