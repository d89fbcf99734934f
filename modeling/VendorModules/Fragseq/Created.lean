import VendorModules.Fragseq.Decode

namespace VendorModules.Fragseq

open Lib

namespace CreateCall

def spanLen (call : CreateCall) : Nat :=
  call.payloadLen + if call.idExt then 1 else 0

structure Fragments (call : CreateCall) : Prop where
  required : 255 < call.spanLen
  few : call.spanLen / 255 + (if call.spanLen % 255 = 0 then 0 else 1) < 65536

variable {call : CreateCall}

def seqLen (call : CreateCall) : Nat :=
  2 + call.spanLen + ((call.spanLen / 255 - 1) * 2 +
    if call.spanLen % 255 = 0 then 0 else 2)

def params (call : CreateCall) : CreationParams where
  expectedFragseqLen := call.seqLen
  prepayloadLeadBytes := 2 + if call.idExt then 1 else 0
  numMaxsizeFrags := call.spanLen / 255
  smallerFragSize := call.spanLen % 255
  extraHdrBytes := (call.spanLen / 255 - 1) * 2 + if call.spanLen % 255 = 0 then 0 else 2

theorem Fragments.creationParams (fragments : call.Fragments) :
    fragseqCreationParams call.isSubelem call.id call.payloadLen = some call.params := by
  obtain ⟨required, few⟩ := fragments
  have count : call.spanLen / 255 < 65536 := by
    split at few <;> omega
  have frags : numMaxsizeFrags call.idExt call.payloadLen = call.spanLen / 255 := by
    unfold spanLen at count ⊢
    unfold numMaxsizeFrags elemunitMaxPayloadLen
    cases ext : call.idExt <;> simp only [ext, Bool.false_eq_true, if_false, if_true] at *
    · exact Nat.mod_eq_of_lt (by omega)
    · exact Nat.mod_eq_of_lt (by omega)
  have smaller : smallerFragSize call.idExt call.payloadLen = call.spanLen % 255 := by
    unfold spanLen at required ⊢
    unfold smallerFragSize elemunitMaxPayloadLen
    cases ext : call.idExt <;> simp only [ext, Bool.false_eq_true, if_false, if_true] at *
    · rfl
    · omega
  have extra : extraHdrBytes call.idExt call.payloadLen = call.params.extraHdrBytes := by
    simp only [extraHdrBytes, frags, smaller, elemunitHdrLen, params]
  have bound : ¬call.payloadLen ≤
      if call.idExt then elemunitMaxPayloadLen - 1 else elemunitMaxPayloadLen := by
    unfold spanLen at required
    unfold elemunitMaxPayloadLen
    cases ext : call.idExt <;> simp only [ext, Bool.false_eq_true, if_false, if_true] at * <;>
      omega
  have lead : prepayloadLeadBytes call.idExt = call.params.prepayloadLeadBytes := by
    unfold prepayloadLeadBytes params
    cases call.idExt <;> rfl
  have total : call.params.prepayloadLeadBytes + call.payloadLen +
      call.params.extraHdrBytes = call.seqLen := by
    unfold seqLen params spanLen
    simp only
    omega
  unfold fragseqCreationParams
  simp only [← show call.idExt = hasIdExt call.isSubelem call.id from rfl, bound,
    if_false, frags, smaller, extra, lead, total]
  rfl

theorem placeFrag_eq {source dest : Buffer} {src dst count len : Nat}
    (before window after block : List UInt8)
    (loaded : load (if call.inlineFrag then dest else source) src count = .ok block)
    (shape : dest = before ++ (window ++ after)) (here : before.length + 2 = dst)
    (size : window.length = block.length + 2) :
    call.placeFrag source dest src dst count len =
      .ok (before ++ (call.fragId :: UInt8.ofNat len :: block ++ after)) := by
  obtain ⟨first, rest, rfl, firstSize⟩ : ∃ first rest, window = first ++ rest ∧
      first.length = 2 := by
    refine ⟨window.take 2, window.drop 2, (List.take_append_drop 2 window).symm, ?_⟩
    simp only [List.length_take]
    omega
  have restSize : rest.length = block.length := by
    simp only [List.length_append] at size
    omega
  have moved : store dest block dst = .ok (before ++ first ++ block ++ after) :=
    writeAt_append (before ++ first) rest after (by simp [shape])
      (by simp only [List.length_append]; omega) restSize
  have headed : store (before ++ first ++ block ++ after)
      [call.fragId, UInt8.ofNat len] (dst - 2) =
        .ok (before ++ [call.fragId, UInt8.ofNat len] ++ (block ++ after)) :=
    writeAt_append before first (block ++ after) (by simp) (by omega) firstSize
  unfold placeFrag
  rw [loaded, ok_bind, moved, ok_bind, elemunitHdrLen, headed]
  simp

theorem load_congr {buff other : Buffer} {pos count : Nat} (bound : Nat)
    (same : buff.take bound = other.take bound) (inside : pos + count ≤ bound)
    (fits : bound ≤ buff.length) (otherFits : bound ≤ other.length) :
    load buff pos count = load other pos count := by
  have cells : (buff.drop pos).take count = (other.drop pos).take count := by
    have shrink : ∀ list : List UInt8,
        (list.drop pos).take count = (((list.take bound).drop pos).take count) := by
      intro list
      rw [List.drop_take, List.take_take, Nat.min_eq_left (by omega)]
    rw [shrink buff, shrink other, same]
  unfold load readAt
  rw [if_pos (by omega), if_pos (by omega), cells]

theorem load_eq {buff : Buffer} {pos count : Nat} (fits : pos + count ≤ buff.length) :
    load buff pos count = .ok ((buff.drop pos).take count) := by
  unfold load readAt
  rw [if_pos fits]

structure Fits (call : CreateCall) (source dest : Buffer) : Prop where
  enough : 2 + call.spanLen ≤ source.length
  room : call.seqLen ≤ dest.length
  shared : call.inlineFrag = true → dest = source

def seqTail (call : CreateCall) (source dest : Buffer) : List UInt8 :=
  if call.inlineFrag then
    (source.drop (2 + call.spanLen)).take (source.length - call.seqLen)
  else
    dest.drop call.seqLen

structure Placed (call : CreateCall) (source : Buffer) (i : Nat)
    (bodies : List (List UInt8)) (tail : List UInt8) (dest : Buffer) : Prop where
  shape : ∃ head, dest = head ++ (encodeUnits call.fragId bodies ++ tail) ∧
    head.length = 2 + i * 255 + (i - 1) * 2 ∧
      (call.inlineFrag = true → head.take (2 + i * 255) = source.take (2 + i * 255))
  sized : WellSized bodies
  flat : bodies.flatten = (source.take (2 + call.spanLen)).drop (2 + i * 255)
  total : 2 + i * 255 + (i - 1) * 2 + (encodeUnits call.fragId bodies).length =
    call.seqLen

theorem drop_take_split (source : List UInt8) {pos count bound : Nat}
    (inside : pos + count ≤ bound) :
    (source.take bound).drop pos =
      (source.drop pos).take count ++ (source.take bound).drop (pos + count) := by
  rw [← List.take_append_drop count ((source.take bound).drop pos), List.drop_drop,
    List.drop_take, List.take_take, Nat.min_eq_left (by omega)]

section

variable {source dest : Buffer} {bodies : List (List UInt8)} {tail : List UInt8}
  {i size : Nat}

/-- The last fragment is the first one placed, in the inline mode with what follows
the payload. -/
theorem placeFrag_last (fits : call.Fits source dest) (span : i * 255 + size = call.spanLen)
    (more : 0 < i) (nonempty : 0 < size) (small : size ≤ 255)
    (extra : call.params.extraHdrBytes = i * 2) :
    ∃ next, call.placeFrag source dest (2 + i * 255) (2 + i * 255 + i * 2)
        (size + call.residualLen call.params source (2 + i * 255) (2 + i * 255 + i * 2))
        size = .ok next ∧
      Placed call source i [(source.drop (2 + i * 255)).take size]
        (call.seqTail source dest) next := by
  obtain ⟨enough, room, shared⟩ := fits
  have seqLen : call.seqLen = 2 + call.spanLen + i * 2 := by
    rw [← extra]
    rfl
  have piece : ((source.drop (2 + i * 255)).take size).length = size := by
    simp only [List.length_take, List.length_drop]
    omega
  have placed : ∀ head : List UInt8, head.length = 2 + i * 255 + (i - 1) * 2 →
      (call.inlineFrag = true → head.take (2 + i * 255) = source.take (2 + i * 255)) →
      Placed call source i [(source.drop (2 + i * 255)).take size]
        (call.seqTail source dest)
        (head ++ (call.fragId :: UInt8.ofNat size ::
          ((source.drop (2 + i * 255)).take size) ++ call.seqTail source dest)) := by
    intro head headSize kept
    refine ⟨⟨head, by simp [encodeUnit, piece], headSize, kept⟩,
      .last _ (by omega) (by omega), ?_, ?_⟩
    · rw [drop_take_split source (show 2 + i * 255 + size ≤ 2 + call.spanLen by omega),
        List.drop_eq_nil_of_le
          (show (source.take (2 + call.spanLen)).length ≤ 2 + i * 255 + size by
            simp only [List.length_take]; omega)]
      simp
    · simp only [encodeUnits_cons, encodeUnits_nil, List.append_nil, length_encodeUnit,
        piece, seqLen]
      omega
  cases mode : call.inlineFrag with
  | false =>
    have residual : call.residualLen call.params source (2 + i * 255)
        (2 + i * 255 + i * 2) = 0 := by
      simp [residualLen, mode]
    have tail : call.seqTail source dest = dest.drop call.seqLen := by
      simp [seqTail, mode]
    have loaded : load (if call.inlineFrag then dest else source) (2 + i * 255) size =
        .ok ((source.drop (2 + i * 255)).take size) := by
      rw [if_neg (by simp [mode])]
      exact load_eq (by omega)
    rw [residual, Nat.add_zero]
    refine ⟨_, placeFrag_eq (dest.take (2 + i * 255 + (i - 1) * 2))
      ((dest.drop (2 + i * 255 + (i - 1) * 2)).take (size + 2))
      (dest.drop call.seqLen) _ loaded ?_ ?_ ?_, ?_⟩
    · have rest : dest.drop call.seqLen =
          (dest.drop (2 + i * 255 + (i - 1) * 2)).drop (size + 2) := by
        rw [List.drop_drop]
        congr 1
        omega
      rw [rest, List.take_append_drop, List.take_append_drop]
    · simp only [List.length_take]
      omega
    · simp only [List.length_take, List.length_drop, piece]
      omega
    · rw [← tail]
      refine placed _ ?_ (fun inline => absurd (mode.symm.trans inline) (by simp))
      simp only [List.length_take]
      omega
  | true =>
    obtain rfl := shared mode
    have lead : call.params.prepayloadLeadBytes + call.payloadLen =
        2 + call.spanLen := by
      simp only [params, spanLen]
      omega
    have residual : call.residualLen call.params dest (2 + i * 255)
        (2 + i * 255 + i * 2) = dest.length - call.seqLen := by
      unfold residualLen
      simp only [mode, Bool.true_and, lead]
      rw [if_pos (by simp only [decide_eq_true_eq]; omega),
        if_pos (by simp only [decide_eq_true_eq]; omega)]
      omega
    have tail : call.seqTail dest dest =
        (dest.drop (2 + call.spanLen)).take (dest.length - call.seqLen) := by
      simp [seqTail, mode]
    have block : (dest.drop (2 + i * 255)).take (size + (dest.length - call.seqLen)) =
        (dest.drop (2 + i * 255)).take size ++ call.seqTail dest dest := by
      rw [List.take_add, List.drop_drop, tail, ← span, Nat.add_assoc]
    have loaded : load (if call.inlineFrag then dest else dest) (2 + i * 255)
        (size + (dest.length - call.seqLen)) =
        .ok ((dest.drop (2 + i * 255)).take size ++ call.seqTail dest dest) := by
      rw [if_pos mode, ← block]
      exact load_eq (by omega)
    have tailSize : (call.seqTail dest dest).length = dest.length - call.seqLen := by
      rw [tail]
      simp only [List.length_take, List.length_drop]
      omega
    rw [residual]
    refine ⟨_, placeFrag_eq (dest.take (2 + i * 255 + (i - 1) * 2))
      (dest.drop (2 + i * 255 + (i - 1) * 2)) [] _ loaded ?_ ?_ ?_, ?_⟩
    · rw [List.append_nil, List.take_append_drop]
    · simp only [List.length_take]
      omega
    · simp only [List.length_drop, List.length_append, piece, tailSize]
      omega
    · have result := placed (dest.take (2 + i * 255 + (i - 1) * 2))
        (by simp only [List.length_take]; omega)
        (fun _ => by rw [List.take_take, Nat.min_eq_left (by omega)])
      simpa using result

theorem Placed.placeFrag (placed : Placed call source (i + 2) bodies tail dest)
    (enough : 2 + call.spanLen ≤ source.length) (full : (i + 2) * 255 ≤ call.spanLen) :
    ∃ next, call.placeFrag source dest (2 + (i + 1) * 255)
        (2 + (i + 1) * 255 + (i + 1) * 2) 255 255 = .ok next ∧
      Placed call source (i + 1)
        ((source.drop (2 + (i + 1) * 255)).take 255 :: bodies) tail next := by
  obtain ⟨⟨head, shape, size, kept⟩, sized, flat, total⟩ := placed
  have block : ((source.drop (2 + (i + 1) * 255)).take 255).length = 255 := by
    simp only [List.length_take, List.length_drop]
    omega
  have loaded : load (if call.inlineFrag then dest else source) (2 + (i + 1) * 255) 255 =
      .ok ((source.drop (2 + (i + 1) * 255)).take 255) := by
    rw [← load_eq (by omega)]
    split
    next mode =>
      refine load_congr (2 + (i + 2) * 255) ?_ (by omega) ?_ (by omega)
      · rw [← kept mode, shape, List.take_append_of_le_length (by omega)]
      · rw [shape]
        simp only [List.length_append]
        omega
    next => rfl
  refine ⟨_, placeFrag_eq (head.take (2 + (i + 1) * 255 + (i + 1) * 2 - 2))
    (head.drop (2 + (i + 1) * 255 + (i + 1) * 2 - 2))
    (encodeUnits call.fragId bodies ++ tail) _ loaded ?_ ?_ ?_, ?_⟩
  · rw [shape, ← List.append_assoc (head.take _), List.take_append_drop]
  · simp only [List.length_take]
    omega
  · simp only [List.length_drop, block]
    omega
  · obtain ⟨next, rest, rfl⟩ : ∃ next rest, bodies = next :: rest := by
      cases sized with
      | last body _ _ => exact ⟨body, [], rfl⟩
      | cons body _ _ => exact ⟨body, _, rfl⟩
    refine ⟨⟨head.take (2 + (i + 1) * 255 + (i + 1) * 2 - 2), ?_, ?_, ?_⟩,
      .cons _ block sized, ?_, ?_⟩
    · simp [encodeUnit, block]
    · simp only [List.length_take]
      omega
    · intro mode
      rw [List.take_take, Nat.min_eq_left (by omega)]
      have shorter := congrArg (List.take (2 + (i + 1) * 255)) (kept mode)
      simpa only [List.take_take, Nat.min_eq_left (show 2 + (i + 1) * 255 ≤
        2 + (i + 2) * 255 by omega)] using shorter
    · have split := drop_take_split source
        (show 2 + (i + 1) * 255 + 255 ≤ 2 + call.spanLen by omega)
      rw [List.flatten_cons, flat, split,
        show 2 + (i + 1) * 255 + 255 = 2 + (i + 2) * 255 by omega]
    · rw [encodeUnits_cons call.fragId _ (next :: rest), List.length_append,
        length_encodeUnit, block, ← total, Nat.add_mul i 2, Nat.add_mul i 1]
      omega

theorem Placed.placeMaxsizeFrags (placed : Placed call source (i + 1) bodies tail dest)
    (enough : 2 + call.spanLen ≤ source.length) (full : (i + 1) * 255 ≤ call.spanLen)
    (started : i + 1 = call.params.numMaxsizeFrags → call.params.smallerFragSize ≠ 0) :
    ∃ next bodies, call.placeMaxsizeFrags call.params source (i + 1) (i * 2) dest =
        .ok next ∧ Placed call source 1 bodies tail next := by
  induction i generalizing bodies dest with
  | zero => exact ⟨dest, bodies, by simp [CreateCall.placeMaxsizeFrags], placed⟩
  | succ i ih =>
    have less : (i + 1) * 255 ≤ call.spanLen :=
      Nat.le_trans (Nat.mul_le_mul_right 255 (Nat.le_succ _)) full
    obtain ⟨next, ran, placedNext⟩ := placed.placeFrag enough full
    have below : ¬(i + 1 = call.params.numMaxsizeFrags) := by
      have frags : call.params.numMaxsizeFrags = call.spanLen / 255 := rfl
      omega
    obtain ⟨final, others, rest, placedLast⟩ := ih placedNext less
      (fun same => absurd same below)
    refine ⟨final, others, ?_, placedLast⟩
    have none : ¬(i + 2 = call.params.numMaxsizeFrags ∧
        call.params.smallerFragSize = 0) := fun both => started both.1 both.2
    simp only [CreateCall.placeMaxsizeFrags, elemunitHdrLen, elemunitMaxPayloadLen,
      if_neg none, Nat.add_zero, ran, ok_bind]
    rw [show (i + 1) * 2 - 2 = i * 2 by omega, rest]

theorem Fragments.placed (fragments : call.Fragments) (fits : call.Fits source dest) :
    ∃ frags bodies, (do
        let tail ← call.placeSmallerFrag call.params source dest
        call.placeMaxsizeFrags call.params source
          (call.params.numMaxsizeFrags % 2 ^ 16)
          (if call.params.smallerFragSize = 0 then call.params.extraHdrBytes
            else call.params.extraHdrBytes - elemunitHdrLen) tail) = .ok frags ∧
      Placed call source 1 bodies (call.seqTail source dest) frags := by
  obtain ⟨required, few⟩ := fragments
  have frags : call.params.numMaxsizeFrags = call.spanLen / 255 := rfl
  have smaller : call.params.smallerFragSize = call.spanLen % 255 := rfl
  have counter : call.params.numMaxsizeFrags % 2 ^ 16 = call.spanLen / 255 := by
    rw [frags, Nat.mod_eq_of_lt]
    split at few <;> omega
  rw [counter]
  by_cases whole : call.spanLen % 255 = 0
  · -- the last full fragment is the first one placed
    obtain ⟨i, count⟩ : ∃ i, call.spanLen / 255 = i + 2 := ⟨call.spanLen / 255 - 2, by omega⟩
    have extra : call.params.extraHdrBytes = (i + 1) * 2 := by
      simp [params, count, whole]
    obtain ⟨next, ran, placed⟩ := placeFrag_last fits
      (show (i + 1) * 255 + 255 = call.spanLen by omega) (by omega) (by omega) (by omega)
      extra
    obtain ⟨final, bodies, rest, placedLast⟩ := placed.placeMaxsizeFrags fits.enough
      (by omega) (fun same => by omega)
    refine ⟨final, bodies, ?_, placedLast⟩
    have last : i + 2 = call.params.numMaxsizeFrags ∧ call.params.smallerFragSize = 0 :=
      ⟨by omega, by omega⟩
    simp only [placeSmallerFrag, smaller, whole, if_true, ok_bind, count,
      CreateCall.placeMaxsizeFrags, elemunitHdrLen, elemunitMaxPayloadLen, extra]
    rw [if_pos ⟨last.1, trivial⟩, ran, ok_bind, show (i + 1) * 2 - 2 = i * 2 by omega,
      rest]
  · obtain ⟨i, count⟩ : ∃ i, call.spanLen / 255 = i + 1 := ⟨call.spanLen / 255 - 1, by omega⟩
    have extra : call.params.extraHdrBytes = (i + 1) * 2 := by
      simp only [params, count, whole, if_false]
      omega
    obtain ⟨next, ran, placed⟩ := placeFrag_last fits
      (show (i + 1) * 255 + call.spanLen % 255 = call.spanLen by omega) (by omega)
      (by omega) (by omega) extra
    obtain ⟨final, bodies, rest, placedLast⟩ := placed.placeMaxsizeFrags fits.enough
      (by omega) (fun _ => by omega)
    refine ⟨final, bodies, ?_, placedLast⟩
    simp only [placeSmallerFrag, smaller, whole, if_false, frags, count, elemunitHdrLen,
      elemunitMaxPayloadLen, extra, ran, ok_bind]
    rw [show (i + 1) * 2 - 2 = i * 2 by omega, rest]

/-- The lead fragment's body: the ID extension, if there is one, and the start of the
payload. -/
def leadBody (call : CreateCall) (source : Buffer) : List UInt8 :=
  if call.idExt then call.idext :: (source.drop 3).take 254 else (source.drop 2).take 255

theorem length_leadBody (enough : 257 ≤ source.length) :
    (call.leadBody source).length = 255 := by
  unfold leadBody
  split <;> simp only [List.length_cons, List.length_take, List.length_drop] <;> omega

theorem placeLead_eq (call : CreateCall) (source dest : Buffer) :
    call.placeLead source dest =
      ((if call.inlineFrag then .ok dest
        else do
          let bytes ← load source elemunitHdrLen elemunitMaxPayloadLen
          store dest bytes elemunitHdrLen) >>= fun copied => do
        let headed ← store copied [call.id, UInt8.ofNat elemunitMaxPayloadLen] 0
        if call.idExt then store headed [call.idext] elemunitIdextPos
        else .ok headed) := by
  unfold CreateCall.placeLead
  cases call.inlineFrag with
  | true => rfl
  | false => cases load source elemunitHdrLen elemunitMaxPayloadLen <;> rfl

theorem Placed.placeLead (placed : Placed call source 1 bodies tail dest)
    (enough : 257 ≤ source.length) :
    call.placeLead source dest = .ok (encodeUnit call.id (call.leadBody source) ++
      (encodeUnits call.fragId bodies ++ tail)) := by
  obtain ⟨⟨head, shape, size, kept⟩, -, -, -⟩ := placed
  simp only [Nat.reduceMul, Nat.reduceAdd, Nat.sub_self, Nat.zero_mul, Nat.add_zero]
    at size kept
  -- in both modes the lead's bytes stand behind two bytes of header now
  have copied : ∃ before, before.length = 2 ∧ (if call.inlineFrag then .ok dest
      else do
        let bytes ← load source elemunitHdrLen elemunitMaxPayloadLen
        store dest bytes elemunitHdrLen) =
      .ok (before ++ (source.drop 2).take 255 ++
        (encodeUnits call.fragId bodies ++ tail)) := by
    refine ⟨head.take 2, by simp only [List.length_take]; omega, ?_⟩
    cases mode : call.inlineFrag with
    | true =>
      have same := kept mode
      rw [List.take_of_length_le (by omega)] at same
      have bytes : head.drop 2 = (source.drop 2).take 255 := by
        rw [same, List.drop_take]
      simp only [if_true, shape, ← bytes]
      rw [List.take_append_drop]
    | false =>
      have loaded : load source 2 255 = .ok ((source.drop 2).take 255) :=
        load_eq (by omega)
      have stored : store dest ((source.drop 2).take 255) 2 =
          .ok (head.take 2 ++ (source.drop 2).take 255 ++
            (encodeUnits call.fragId bodies ++ tail)) := by
        refine writeAt_append (head.take 2) (head.drop 2) _ ?_ ?_ ?_
        · rw [shape, List.take_append_drop]
        · simp only [List.length_take]
          omega
        · simp only [List.length_drop, List.length_take]
          omega
      simp only [Bool.false_eq_true, if_false, elemunitHdrLen, elemunitMaxPayloadLen,
        loaded, ok_bind, stored]
  obtain ⟨before, two, copied⟩ := copied
  have headed : store (before ++ (source.drop 2).take 255 ++
      (encodeUnits call.fragId bodies ++ tail))
      [call.id, UInt8.ofNat elemunitMaxPayloadLen] 0 =
        .ok ([] ++ [call.id, UInt8.ofNat elemunitMaxPayloadLen] ++
          ((source.drop 2).take 255 ++ (encodeUnits call.fragId bodies ++ tail))) :=
    writeAt_append [] before _ (by simp) rfl two
  have full : (call.leadBody source).length = 255 := length_leadBody enough
  rw [placeLead_eq, copied, ok_bind, headed, ok_bind]
  unfold encodeUnit
  rw [full]
  unfold leadBody
  cases ext : call.idExt with
  | false => simp [elemunitMaxPayloadLen]
  | true =>
    have first : (source.drop 2).take 255 =
        (source.drop 2).take 1 ++ (source.drop 3).take 254 := by
      rw [← List.take_append_drop 1 ((source.drop 2).take 255), List.take_take,
        List.drop_take, List.drop_drop]
      rfl
    have stored : store ([] ++ [call.id, UInt8.ofNat elemunitMaxPayloadLen] ++
        ((source.drop 2).take 255 ++ (encodeUnits call.fragId bodies ++ tail)))
        [call.idext] elemunitIdextPos =
        .ok ([call.id, UInt8.ofNat elemunitMaxPayloadLen] ++ [call.idext] ++
          ((source.drop 3).take 254 ++ (encodeUnits call.fragId bodies ++ tail))) := by
      refine writeAt_append _ ((source.drop 2).take 1) _ (by rw [first]; simp) rfl ?_
      simp only [List.length_take, List.length_drop, List.length_singleton]
      omega
    rw [if_pos rfl, stored]
    simp [elemunitMaxPayloadLen]

structure Created (call : CreateCall) (source dest : Buffer) (sequence : Sequence) :
    Prop where
  id : sequence.id = call.id
  fragId : sequence.fragId = call.fragId
  tail : sequence.tail = call.seqTail source dest
  more : sequence.rest ≠ []
  sized : WellSized (sequence.lead :: sequence.rest)
  total : sequence.bytes.length = call.seqLen
  payload : sequence.payload call.isSubelem =
    (source.drop call.params.prepayloadLeadBytes).take call.payloadLen

theorem Fragments.writeFragseq (fragments : call.Fragments)
    (fits : call.Fits source dest) :
    ∃ sequence, Created call source dest sequence ∧
      call.writeFragseq call.params source dest = .ok (call.seqLen, sequence.buffer) := by
  have enough : 257 ≤ source.length := by
    have required := fragments.required
    have room := fits.enough
    omega
  obtain ⟨frags, bodies, ran, placed⟩ := fragments.placed fits
  have lead := placed.placeLead enough
  obtain ⟨-, sized, flat, total⟩ := placed
  simp only [Nat.reduceMul, Nat.reduceAdd, Nat.sub_self, Nat.zero_mul, Nat.add_zero]
    at flat total
  have full : (call.leadBody source).length = 255 := length_leadBody enough
  refine ⟨
    { id := call.id
      fragId := call.fragId
      lead := call.leadBody source
      rest := bodies
      tail := call.seqTail source dest }, ⟨rfl, rfl, rfl, ?_, ?_, ?_, ?_⟩, ?_⟩
  · rintro rfl
    cases sized
  · cases sized with
    | last body nonempty fits => exact .cons _ full (.last body nonempty fits)
    | cons body fullBody sized => exact .cons _ full (.cons body fullBody sized)
  · simp only [Sequence.bytes, List.length_append, length_encodeUnit, full, ← total]
  · have required := fragments.required
    have ext : hasIdExt call.isSubelem call.id = call.idExt := rfl
    unfold spanLen at required
    simp only [Sequence.payload, Sequence.extLen, flat, leadBody, params, spanLen, ext]
    cases mode : call.idExt with
    | true =>
      simp only [mode, if_true] at required ⊢
      have split := drop_take_split source
        (show 3 + 254 ≤ 2 + (call.payloadLen + 1) by omega)
      rw [List.drop_take, show 2 + (call.payloadLen + 1) - 3 = call.payloadLen by omega]
        at split
      exact split.symm
    | false =>
      simp only [mode, Bool.false_eq_true, if_false] at required ⊢
      have split := drop_take_split source
        (show 2 + 255 ≤ 2 + (call.payloadLen + 0) by omega)
      rw [List.drop_take, show 2 + (call.payloadLen + 0) - 2 = call.payloadLen by omega]
        at split
      exact split.symm
  · have assembled : call.writeFragseq call.params source dest = (do
        let frags ← (do
          let tail ← call.placeSmallerFrag call.params source dest
          call.placeMaxsizeFrags call.params source
            (call.params.numMaxsizeFrags % 2 ^ 16)
            (if call.params.smallerFragSize = 0 then call.params.extraHdrBytes
              else call.params.extraHdrBytes - elemunitHdrLen) tail)
        let out ← call.placeLead source frags
        .ok (call.params.expectedFragseqLen, out)) := by
      unfold CreateCall.writeFragseq
      cases call.placeSmallerFrag call.params source dest <;> rfl
    rw [assembled, ran, ok_bind, lead, ok_bind]
    simp [params, Sequence.buffer, Sequence.bytes]

theorem Fragments.createFragseq_inline (fragments : call.Fragments)
    (mode : call.inlineFrag = true) (payload : call.payloadBuff = some source)
    (room : call.seqLen ≤ source.length) :
    call.createFragseq = call.writeFragseq call.params source source := by
  have long : call.payloadLen + 2 ≤ call.seqLen := by
    unfold seqLen spanLen
    omega
  have announced : ¬source.length < call.params.expectedFragseqLen := Nat.not_lt.2 room
  unfold CreateCall.createFragseq
  simp only [fragments.creationParams, payload, mode, if_true, announced, if_false]
  rw [if_neg (by omega), if_neg (by omega)]

theorem Fragments.createFragseq_copy (fragments : call.Fragments)
    (mode : call.inlineFrag = false) (payload : call.payloadBuff = some source)
    (size : call.payloadLen ≤ source.length) (target : call.fragBuff = some dest)
    (room : call.seqLen ≤ dest.length) :
    call.createFragseq = call.writeFragseq call.params source dest := by
  have long : 2 ≤ call.seqLen ∧ 0 < call.payloadLen := by
    have required := fragments.required
    unfold seqLen spanLen at *
    split at required <;> omega
  have announced : ¬dest.length < call.params.expectedFragseqLen := Nat.not_lt.2 room
  unfold CreateCall.createFragseq
  simp only [fragments.creationParams, payload, mode, Bool.false_eq_true, if_false, target,
    announced]
  rw [if_neg (by omega), if_neg (by omega), if_neg (by omega)]

theorem Fragments.writeFragseq_fault (fragments : call.Fragments)
    (mode : call.inlineFrag = false) (short : source.length < 2 + call.spanLen) :
    call.writeFragseq call.params source dest = .error .outOfBounds := by
  obtain ⟨required, few⟩ := fragments
  have fault : ∀ dest src dst count len, source.length < src + count →
      call.placeFrag source dest src dst count len = .error .outOfBounds := by
    intro dest src dst count len outside
    have failed : load source src count = .error .outOfBounds := readAt_fault outside
    unfold CreateCall.placeFrag
    rw [if_neg (by simp [mode]), failed]
    rfl
  have residual : ∀ src dst, call.residualLen call.params source src dst = 0 := by
    intro src dst
    simp [residualLen, mode]
  have frags : call.params.numMaxsizeFrags = call.spanLen / 255 := rfl
  have smaller : call.params.smallerFragSize = call.spanLen % 255 := rfl
  have counter : call.params.numMaxsizeFrags % 2 ^ 16 = call.spanLen / 255 := by
    rw [frags, Nat.mod_eq_of_lt]
    split at few <;> omega
  unfold CreateCall.writeFragseq
  rw [counter]
  by_cases whole : call.spanLen % 255 = 0
  · obtain ⟨i, count⟩ : ∃ i, call.spanLen / 255 = i + 2 := ⟨call.spanLen / 255 - 2, by omega⟩
    simp only [placeSmallerFrag, smaller, whole, if_true, ok_bind, count,
      CreateCall.placeMaxsizeFrags, residual, ite_self]
    rw [fault _ _ _ _ _ (by simp only [elemunitHdrLen, elemunitMaxPayloadLen]; omega)]
    rfl
  · simp only [placeSmallerFrag, smaller, whole, if_false, frags, residual]
    rw [fault _ _ _ _ _ (by simp only [elemunitHdrLen, elemunitMaxPayloadLen]; omega)]
    rfl

end

end CreateCall

end VendorModules.Fragseq
