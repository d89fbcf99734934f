import VendorModules.Fragseq.Decode

namespace VendorModules.Fragseq

open Lib

/-! Fragment sequences in buffers of any bytes. -/

section Info

variable {buff : Buffer} {before body behind : List UInt8} {id fragId : UInt8} {curr : Nat}
variable {info : FragseqInfo}

theorem fragseqInfoLoop_of_error {failure : Failure}
    (found : successorFrag fragId curr buff = .error failure) :
    fragseqInfoLoop fragId buff curr info = .error failure := by
  rw [fragseqInfoLoop]
  split
  next failed => rw [found] at failed; cases failed; rfl
  next none => rw [found] at none; cases none
  next some => rw [found] at some; cases some

theorem fragseqInfoLoop_of_some {next : SuccessorFrag}
    (found : successorFrag fragId curr buff = .ok (some next)) :
    fragseqInfoLoop fragId buff curr info =
      fragseqInfoLoop fragId buff next.pos
        { totalLen := info.totalLen + next.totalLen
          payloadLen := info.payloadLen + next.payloadLen } := by
  rw [fragseqInfoLoop]
  split
  next failed => rw [found] at failed; cases failed
  next none => rw [found] at none; cases none
  next some => rw [found] at some; cases some; rfl

theorem fragseqInfoLoop_cases (n : Nat) (short : behind.length < n)
    (shape : buff = before ++ (encodeUnit id body ++ behind)) (here : before.length = curr)
    (nonempty : 0 < body.length) (fits : body.length ≤ 255) (info : FragseqInfo) :
    (∃ status, fragseqInfoLoop fragId buff curr info = .error (.status status)) ∨
      ∃ rest tail, behind = encodeUnits fragId rest ++ tail ∧ WellSized (body :: rest) ∧
        StartsWhole tail ∧ tail.head? ≠ some fragId := by
  induction n generalizing before body behind id curr info with
  | zero => exact absurd short (Nat.not_lt_zero _)
  | succ n ih =>
    have found := @successorFrag_eq buff before body id fragId curr behind shape here fits
    by_cases empty : behind = []
    · refine .inr ⟨[], [], ?_, .last body nonempty fits, .inl rfl, fun same => nomatch same⟩
      rw [empty]
      rfl
    · rw [if_neg empty] at found
      cases split : splitUnit behind with
      | none =>
        rw [split] at found
        exact .inl ⟨.eProto, fragseqInfoLoop_of_error found⟩
      | some unit =>
        obtain ⟨nextId, next, after⟩ := unit
        obtain ⟨nextFits, parts⟩ := splitUnit_eq_some split
        rw [split] at found
        dsimp only at found
        split_ifs at found with other partial' bare
        · refine .inr ⟨[], behind, rfl, .last body nonempty fits,
            .inr ⟨nextId, next, after, nextFits, parts⟩, ?_⟩
          rw [parts]
          exact fun same => other (Option.some.inj same)
        · exact .inl ⟨.eProto, fragseqInfoLoop_of_error found⟩
        · exact .inl ⟨.eProto, fragseqInfoLoop_of_error found⟩
        · have same : nextId = fragId := not_not.mp other
          have full : body.length = 255 := not_not.mp partial'
          subst same
          rw [fragseqInfoLoop_of_some found]
          have later := @ih (before ++ encodeUnit id body) next after nextId
            (curr + (2 + body.length))
            (by have := splitUnit_length split; omega)
            (by rw [shape, parts, List.append_assoc])
            (by rw [List.length_append, here, length_encodeUnit]; omega)
            (Nat.pos_of_ne_zero bare) nextFits
            { totalLen := info.totalLen + (2 + next.length)
              payloadLen := info.payloadLen + next.length }
          refine later.imp_right ?_
          rintro ⟨rest, tail, rfl, sized, whole, ends⟩
          refine ⟨next :: rest, tail, ?_, .cons body full sized, whole, ends⟩
          rw [parts, encodeUnits_cons, List.append_assoc]

end Info

namespace Sequence

variable {sequence : Sequence} {buff : Buffer} {isSubelem : Bool} {subelemFragId : UInt8}

def ofBytes (fragId : UInt8) (buff : Buffer) : Option Sequence :=
  (splitUnit buff).map fun (id, lead, behind) =>
    { id := id
      fragId := fragId
      lead := lead
      rest := (unitRun fragId behind).1
      tail := (unitRun fragId behind).2 }

theorem Framed.ofBytes_buffer (framed : sequence.Framed) :
    ofBytes sequence.fragId sequence.buffer = some sequence := by
  have run := @unitRun_encodeUnits sequence.fragId sequence.rest sequence.tail
    (fun body member => framed.sized.fits body (List.mem_cons_of_mem _ member)) framed.ends
  rw [ofBytes, buffer, bytes, List.append_assoc, splitUnit_encodeUnit framed.sized.head_fits,
    Option.map_some]
  dsimp only
  rw [run]

theorem ofBytes_alone {fragId id : UInt8} {lead behind : List UInt8}
    (split : splitUnit buff = some (id, lead, behind)) (alone : behind.head? ≠ some fragId) :
    ofBytes fragId buff = some ⟨id, fragId, lead, [], behind⟩ := by
  rw [ofBytes, split, Option.map_some]
  dsimp only
  rw [unitRun_of_head_ne alone]

theorem fragseqInfo_cases (isSubelem : Bool) (subelemFragId : UInt8) (buff? : Option Buffer) :
    (∃ status, fragseqInfo isSubelem subelemFragId buff? = .error (.status status)) ∨
    (∃ buff sequence, buff? = some buff ∧
      ofBytes (elemunitFragId isSubelem subelemFragId) buff = some sequence ∧
      sequence.rest = [] ∧ fragseqInfo isSubelem subelemFragId buff? = .ok none) ∨
    ∃ sequence : Sequence, sequence.Framed ∧
      elemunitFragId isSubelem subelemFragId = sequence.fragId ∧ buff? = some sequence.buffer := by
  rcases buff? with _ | _ | ⟨id, _ | ⟨len, after⟩⟩
  · exact .inl ⟨.eNullValue, rfl⟩
  · exact .inl ⟨.eInval, rfl⟩
  · exact .inl ⟨.eProto, rfl⟩
  · have long : ¬(id :: len :: after).length = 0 := Nat.succ_ne_zero _
    have header : ¬(id :: len :: after).length < elemunitHdrLen := by
      simp only [List.length_cons, elemunitHdrLen]
      omega
    have lenAt : loadByte (id :: len :: after) 1 = .ok len := rfl
    have idAt : loadByte (id :: len :: after) 0 = .ok id := rfl
    rw [fragseqInfo, if_neg long, if_neg header, lenAt, ok_bind, idAt, ok_bind]
    by_cases there : len.toNat ≤ after.length
    · have split : splitUnit (id :: len :: after) =
          some (id, after.take len.toNat, after.drop len.toNat) := if_pos there
      obtain ⟨fits, shape⟩ := splitUnit_eq_some split
      have whole : ¬(id :: len :: after).length < elemunitHdrLen + len.toNat := by
        simp only [List.length_cons, elemunitHdrLen]
        omega
      rw [if_neg whole]
      generalize after.take len.toNat = lead at fits shape split
      generalize after.drop len.toNat = behind at shape split
      generalize id :: len :: after = buff at shape split
      have found := @successorFrag_eq buff [] lead id (elemunitFragId isSubelem subelemFragId) 0
        behind shape rfl fits
      by_cases empty : behind = []
      · rw [if_pos empty] at found
        have alone : behind.head? ≠ some (elemunitFragId isSubelem subelemFragId) := by
          rw [empty]
          intro same
          cases same
        refine .inr (.inl ⟨buff, _, rfl, ofBytes_alone split alone, rfl, ?_⟩)
        rw [found]
        rfl
      · rw [if_neg empty] at found
        cases splitNext : splitUnit behind with
        | none =>
          rw [splitNext] at found
          rw [found]
          exact .inl ⟨.eProto, rfl⟩
        | some unit =>
          obtain ⟨nextId, next, rest⟩ := unit
          obtain ⟨nextFits, parts⟩ := splitUnit_eq_some splitNext
          rw [splitNext] at found
          dsimp only at found
          split_ifs at found with other short bare
          · have alone : behind.head? ≠ some (elemunitFragId isSubelem subelemFragId) := by
              rw [parts]
              exact fun same => other (Option.some.inj same)
            refine .inr (.inl ⟨buff, _, rfl, ofBytes_alone split alone, rfl, ?_⟩)
            rw [found]
            rfl
          · rw [found]
            exact .inl ⟨.eProto, rfl⟩
          · rw [found]
            exact .inl ⟨.eProto, rfl⟩
          · have same : nextId = elemunitFragId isSubelem subelemFragId := not_not.mp other
            have full : lead.length = 255 := not_not.mp short
            rw [found, ok_bind]
            dsimp only
            rcases @fragseqInfoLoop_cases buff (encodeUnit id lead) next rest nextId
              (elemunitFragId isSubelem subelemFragId) (0 + (2 + lead.length))
              (rest.length + 1) (Nat.lt_succ_self _) (by rw [shape, parts])
              (by rw [length_encodeUnit, Nat.zero_add, Nat.add_comm]) (Nat.pos_of_ne_zero bare) nextFits
              { totalLen := elemunitHdrLen + len.toNat + (2 + next.length)
                payloadLen := leadPayloadLen isSubelem id len + next.length } with
              ⟨status, failed⟩ | ⟨frags, tail, run, sized, wholeTail, ends⟩
            · rw [failed]
              exact .inl ⟨status, rfl⟩
            · refine .inr (.inr ⟨⟨id, nextId, lead, next :: frags, tail⟩, ?_, same.symm, ?_⟩)
              · exact ⟨List.cons_ne_nil _ _, .cons lead full sized, wholeTail, same ▸ ends⟩
              · rw [shape, parts, run, ← same]
                simp [buffer, bytes]
    · have cut : (id :: len :: after).length < elemunitHdrLen + len.toNat := by
        simp only [List.length_cons, elemunitHdrLen]
        omega
      rw [if_pos cut]
      exact .inl ⟨.eProto, rfl⟩

end Sequence

namespace DefragCall

variable {call : DefragCall} {sequence : Sequence}

def info (call : DefragCall) : Except Failure (Option FragseqInfo) :=
  fragseqInfo call.isSubelem call.subelemFragId call.fragBuff

theorem defragFragseq_of_none
    (none : (∃ status, call.info = .error (.status status)) ∨ call.info = .ok none) :
    ∃ status, call.defragFragseq = .error (.status status) := by
  obtain ⟨inlineDefrag, isSubelem, subelemFragId, fragBuff, defragBuff⟩ := call
  rw [info] at none
  dsimp only at none
  rw [defragFragseq]
  dsimp only
  cases fragBuff with
  | none => exact ⟨.eNullValue, rfl⟩
  | some source =>
    dsimp only
    split_ifs with empty mode
    · exact ⟨.eInval, rfl⟩
    · rcases none with ⟨status, failed⟩ | absent
      · rw [failed]
        exact ⟨status, rfl⟩
      · rw [absent]
        exact ⟨.eInval, rfl⟩
    · cases defragBuff with
      | none => exact ⟨.eNullValue, rfl⟩
      | some dest =>
        dsimp only
        split_ifs with bare
        · exact ⟨.eInval, rfl⟩
        · rcases none with ⟨status, failed⟩ | absent
          · rw [failed]
            exact ⟨status, rfl⟩
          · rw [absent]
            exact ⟨.eInval, rfl⟩

def Room (call : DefragCall) (payloadLen : Nat) : Prop :=
  ∃ dest, call.defragBuff = some dest ∧ payloadLen ≤ dest.length

/-- The payload goes to the start of the destination if it has room there; in the inline mode
it stands behind the header, with what was behind the sequence behind it. -/
structure Delivers (call : DefragCall) (sequence : Sequence) (payload : List UInt8) : Prop where
  inPlace : call.inlineDefrag = true → ∃ header slack,
    header.length = elemunitHdrLen + sequence.extLen call.isSubelem ∧
      call.defragFragseq =
        .ok (payload.length, header ++ (payload ++ (sequence.tail ++ slack)))
  copied : call.inlineDefrag = false → ∀ dest, call.defragBuff = some dest →
    payload.length ≤ dest.length →
      call.defragFragseq = .ok (payload.length, payload ++ dest.drop payload.length)
  refused : call.inlineDefrag = false → ¬call.Room payload.length →
    ∃ status, call.defragFragseq = .error (.status status)

theorem delivers_of_framed (framed : sequence.Framed) (frag : call.fragId = sequence.fragId)
    (source : call.fragBuff = some sequence.buffer) :
    call.Delivers sequence (sequence.payload call.isSubelem) where
  inPlace mode := by
    obtain ⟨slack, ran⟩ := framed.defragFragseq_inline mode frag source
    refine ⟨sequence.header call.isSubelem, slack, framed.length_header, ?_⟩
    rw [ran, sequence.header_payload]
  copied mode dest target room := framed.defragFragseq_copy mode frag source target room
  refused mode none := by
    have reported := fragseqInfo_sequence framed frag
    rw [← framed.length_payload] at reported
    have some_source : sequence.buffer.length ≠ 0 := by
      have pending := framed.buffer_length
      omega
    rw [defragFragseq, source]
    dsimp only
    rw [if_neg some_source, mode, if_neg Bool.false_ne_true]
    cases target : call.defragBuff with
    | none => exact ⟨.eNullValue, rfl⟩
    | some dest =>
      dsimp only
      split_ifs with bare
      · exact ⟨.eInval, rfl⟩
      · have short : dest.length < (sequence.payload call.isSubelem).length :=
          Nat.not_le.mp fun room => none ⟨dest, target, room⟩
        rw [reported, ok_bind]
        dsimp only
        rw [if_pos short]
        exact ⟨.eInval, rfl⟩

/-- Both functions stay within their buffers. Where one reports no sequence the other fails;
else the run of units from the first is a sequence whose payload is delivered. -/
inductive Agrees (call : DefragCall) : Prop where
  | refused {status status' : QdfStatus} (info : call.info = .error (.status status))
      (defrag : call.defragFragseq = .error (.status status'))
  | absent {status : QdfStatus} {buff : Buffer} {sequence : Sequence}
      (source : call.fragBuff = some buff)
      (run : Sequence.ofBytes call.fragId buff = some sequence) (alone : sequence.rest = [])
      (info : call.info = .ok none) (defrag : call.defragFragseq = .error (.status status))
  | present {buff : Buffer} {sequence : Sequence} {info : FragseqInfo}
      (source : call.fragBuff = some buff)
      (run : Sequence.ofBytes call.fragId buff = some sequence) (more : sequence.rest ≠ [])
      (reported : call.info = .ok (some info))
      (payloadLen : info.payloadLen = (sequence.payload call.isSubelem).length)
      (delivers : call.Delivers sequence (sequence.payload call.isSubelem))

theorem fragseq_agrees (call : DefragCall) : call.Agrees := by
  rcases Sequence.fragseqInfo_cases call.isSubelem call.subelemFragId call.fragBuff with
    ⟨status, failed⟩ | ⟨buff, sequence, source, run, alone, absent⟩ | ⟨sequence, framed, frag, source⟩
  · obtain ⟨status', defrag⟩ := call.defragFragseq_of_none (.inl ⟨status, failed⟩)
    exact .refused failed defrag
  · obtain ⟨status, defrag⟩ := call.defragFragseq_of_none (.inr absent)
    exact .absent source run alone absent defrag
  · have reported := fragseqInfo_sequence framed frag
    rw [← source, ← framed.length_payload] at reported
    have run : Sequence.ofBytes call.fragId sequence.buffer = some sequence := by
      rw [fragId, frag]
      exact framed.ofBytes_buffer
    exact .present source run framed.more reported rfl (delivers_of_framed framed frag source)

end DefragCall

end VendorModules.Fragseq
