import VendorModules.Fragseq.Created

namespace VendorModules.Fragseq

open Lib

structure Trial where
  inlineFrag : Bool
  isSubelem : Bool
  id : UInt8
  idext : UInt8
  subelemFragId : UInt8
  payload : List UInt8
  /-- What precedes the payload in the inline mode. -/
  reserved : List UInt8
  rest : List UInt8
  /-- The end of the payload's buffer. -/
  slack : List UInt8
  /-- The place for the sequence in its own buffer. -/
  room : List UInt8

namespace Trial

def fragId (trial : Trial) : UInt8 :=
  elemunitFragId trial.isSubelem trial.subelemFragId

def payloadBuff (trial : Trial) : Buffer :=
  if trial.inlineFrag then
    trial.reserved ++ (trial.payload ++ (trial.rest ++ trial.slack))
  else
    trial.payload ++ trial.slack

def call (trial : Trial) : CreateCall where
  inlineFrag := trial.inlineFrag
  isSubelem := trial.isSubelem
  id := trial.id
  idext := trial.idext
  subelemFragId := trial.subelemFragId
  payloadBuff := some trial.payloadBuff
  payloadLen := trial.payload.length
  fragBuff := if trial.inlineFrag then none else some (trial.room ++ trial.rest)

/-- The buffers are as the callers are told to have them, and whole units that do not go on
with the fragment identifier follow. -/
structure Ready (trial : Trial) : Prop where
  fragments : trial.call.Fragments
  header : trial.inlineFrag = true →
    trial.reserved.length = prepayloadLeadBytes trial.call.idExt
  spare : trial.inlineFrag = true →
    trial.slack.length = extraHdrBytes trial.call.idExt trial.payload.length
  room : trial.inlineFrag = false → trial.room.length =
    prepayloadLeadBytes trial.call.idExt + trial.payload.length +
      extraHdrBytes trial.call.idExt trial.payload.length
  units : ValidUnits trial.rest
  ends : trial.rest.head? ≠ some trial.fragId

def defragCall (trial : Trial) (buffer : Buffer) (inlineDefrag : Bool)
    (dest : Option Buffer) : DefragCall where
  inlineDefrag := inlineDefrag
  isSubelem := trial.isSubelem
  subelemFragId := trial.subelemFragId
  fragBuff := some buffer
  defragBuff := dest

/-- What is written is as long as announced and followed by `rest`, and its lengths and its
payload are read back. -/
structure ReadBack (trial : Trial) (len : Nat) (buffer : Buffer) : Prop where
  written : len + trial.rest.length = buffer.length
  kept : buffer.drop len = trial.rest
  info : fragseqInfo trial.isSubelem trial.subelemFragId (some buffer) =
    .ok (some { totalLen := len, payloadLen := trial.payload.length })
  copied : ∀ dest : Buffer, trial.payload.length ≤ dest.length →
    (trial.defragCall buffer false (some dest)).defragFragseq =
      .ok (trial.payload.length, trial.payload ++ dest.drop trial.payload.length)
  inPlace : ∃ header slack, header.length = prepayloadLeadBytes trial.call.idExt ∧
    (trial.defragCall buffer true none).defragFragseq =
      .ok (trial.payload.length, header ++ (trial.payload ++ (trial.rest ++ slack)))

def RoundTrips (trial : Trial) : Prop :=
  ∃ params buffer,
    fragseqCreationParams trial.isSubelem trial.id trial.payload.length = some params ∧
      trial.call.createFragseq = .ok (params.expectedFragseqLen, buffer) ∧
        trial.ReadBack params.expectedFragseqLen buffer

def Shifted (trial : Trial) : Prop :=
  (trial.payloadBuff.drop (prepayloadLeadBytes trial.call.idExt)).take
    trial.payload.length = trial.payload

variable {trial : Trial}

theorem prepayload (trial : Trial) : prepayloadLeadBytes trial.call.idExt =
    trial.call.params.prepayloadLeadBytes := by
  unfold prepayloadLeadBytes CreateCall.params
  cases trial.call.idExt <;> rfl

theorem span (trial : Trial) : trial.call.params.prepayloadLeadBytes +
    trial.payload.length = 2 + trial.call.spanLen := by
  simp only [CreateCall.params, CreateCall.spanLen, call]
  omega

/-- A created sequence is read back as its own payload, so the trial's comes back just
when that is what the sequence carries. -/
theorem readBack_iff {source dest : Buffer} {sequence : Sequence}
    (created : trial.call.Created source dest sequence)
    (tail : sequence.tail = trial.rest) (units : ValidUnits trial.rest)
    (ends : trial.rest.head? ≠ some trial.fragId)
    (size : (sequence.payload trial.isSubelem).length = trial.payload.length) :
    trial.ReadBack trial.call.seqLen sequence.buffer ↔
      sequence.payload trial.isSubelem = trial.payload := by
  have fragId : elemunitFragId trial.isSubelem trial.subelemFragId = sequence.fragId :=
    created.fragId.symm
  have valid : sequence.Valid :=
    { more := created.more
      sized := created.sized
      units := by rwa [tail]
      ends := by
        rw [tail, ← fragId]
        exact ends }
  have copied : ∀ dest : Buffer, trial.payload.length ≤ dest.length →
      (trial.defragCall sequence.buffer false (some dest)).defragFragseq =
        .ok (trial.payload.length,
          sequence.payload trial.isSubelem ++ dest.drop trial.payload.length) := by
    intro dest room
    have frag : (trial.defragCall sequence.buffer false (some dest)).fragId =
        sequence.fragId := fragId
    rw [← size] at room ⊢
    exact valid.framed.defragFragseq_copy rfl frag rfl rfl room
  constructor
  · intro readBack
    have both := (copied trial.payload (Nat.le_refl _)).symm.trans
      (readBack.copied trial.payload (Nat.le_refl _))
    simpa using both
  · intro same
    have full := valid.sized.head_full valid.more
    have frag : (trial.defragCall sequence.buffer true none).fragId = sequence.fragId :=
      fragId
    obtain ⟨slack, inPlace⟩ := valid.framed.defragFragseq_inline rfl frag rfl
    refine ⟨?_, ?_, ?_, fun dest room => by rw [copied dest room, same], ?_⟩
    · rw [Sequence.buffer, List.length_append, created.total, tail]
    · rw [Sequence.buffer, ← created.total, List.drop_left, tail]
    · rw [fragseqInfo_sequence valid.framed fragId, created.total, ← size,
        valid.framed.length_payload]
    · refine ⟨sequence.header trial.isSubelem, slack, ?_, ?_⟩
      · have ext : trial.call.idExt = hasIdExt trial.isSubelem sequence.id := by
          rw [created.id]
          rfl
        rw [valid.framed.length_header, ext, Sequence.extLen, prepayloadLeadBytes]
        split <;> rfl
      · rw [inPlace, tail, ← same]
        exact congrArg _ (congrArg _ (sequence.header_payload _))

theorem Ready.seqLen (ready : trial.Ready) : trial.call.seqLen =
    prepayloadLeadBytes trial.call.idExt + trial.payload.length +
      extraHdrBytes trial.call.idExt trial.payload.length := by
  have announced := ready.fragments.creationParams
  unfold fragseqCreationParams at announced
  dsimp only at announced
  rcases ite_eq_iff.1 announced with ⟨-, announced⟩ | ⟨-, announced⟩
  · cases announced
  · have lens := congrArg CreationParams.expectedFragseqLen (Option.some.inj announced)
    exact lens.symm

theorem Ready.roundTrips_iff_payload (ready : trial.Ready) {source dest : Buffer}
    {sequence : Sequence} (created : trial.call.Created source dest sequence)
    (result : trial.call.createFragseq = .ok (trial.call.seqLen, sequence.buffer))
    (tail : sequence.tail = trial.rest)
    (size : (sequence.payload trial.isSubelem).length = trial.payload.length) :
    trial.RoundTrips ↔ sequence.payload trial.isSubelem = trial.payload := by
  rw [← readBack_iff created tail ready.units ready.ends size]
  constructor
  · rintro ⟨params, buffer, announced, ran, readBack⟩
    rw [result] at ran
    injection ran with ran
    injection ran with len same
    rw [len, same]
    exact readBack
  · intro readBack
    exact ⟨trial.call.params, _, ready.fragments.creationParams, result, readBack⟩

theorem Ready.inline_roundTrips (ready : trial.Ready) (mode : trial.inlineFrag = true) :
    trial.RoundTrips := by
  have header := ready.header mode
  have spare := ready.spare mode
  have seqLen := ready.seqLen
  have span := trial.span
  rw [← prepayload] at span
  have shape : trial.payloadBuff =
      trial.reserved ++ (trial.payload ++ (trial.rest ++ trial.slack)) := if_pos mode
  have length : trial.payloadBuff.length = trial.call.seqLen + trial.rest.length := by
    rw [shape]
    simp only [List.length_append]
    omega
  have fits : trial.call.Fits trial.payloadBuff trial.payloadBuff :=
    { enough := by omega
      room := by omega
      shared := fun _ => rfl }
  obtain ⟨sequence, created, ran⟩ := ready.fragments.writeFragseq fits
  have tail : sequence.tail = trial.rest := by
    have behind : trial.payloadBuff.drop (2 + trial.call.spanLen) =
        trial.rest ++ trial.slack := by
      rw [shape, ← span, ← header, ← List.length_append, ← List.append_assoc,
        List.drop_left]
    have room : trial.payloadBuff.length - trial.call.seqLen = trial.rest.length := by
      omega
    have inline : trial.call.inlineFrag = true := mode
    rw [created.tail, CreateCall.seqTail, if_pos inline, behind, room, List.take_left]
  have payload : sequence.payload trial.isSubelem = trial.payload := by
    have carried := created.payload
    rw [← prepayload, shape, ← header, List.drop_left] at carried
    exact carried.trans List.take_left
  have result : trial.call.createFragseq = .ok (trial.call.seqLen, sequence.buffer) := by
    rw [ready.fragments.createFragseq_inline mode rfl (by omega), ran]
  exact (ready.roundTrips_iff_payload created result tail (by rw [payload])).2 payload

theorem Ready.copy_roundTrips_iff (ready : trial.Ready) (mode : trial.inlineFrag = false) :
    trial.RoundTrips ↔ trial.Shifted := by
  have room := ready.room mode
  have seqLen := ready.seqLen
  have span := trial.span
  rw [← prepayload] at span
  have shape : trial.payloadBuff = trial.payload ++ trial.slack := if_neg (by simp [mode])
  have target : trial.call.fragBuff = some (trial.room ++ trial.rest) :=
    if_neg (by simp [mode])
  have checked := ready.fragments.createFragseq_copy mode rfl
    (show trial.payload.length ≤ trial.payloadBuff.length by
      rw [shape, List.length_append]; omega) target
    (by rw [List.length_append]; omega)
  by_cases enough : 2 + trial.call.spanLen ≤ trial.payloadBuff.length
  · have fits : trial.call.Fits trial.payloadBuff (trial.room ++ trial.rest) :=
      { enough := enough
        room := by rw [List.length_append]; omega
        shared := fun inline => absurd (mode.symm.trans inline) (by simp) }
    obtain ⟨sequence, created, ran⟩ := ready.fragments.writeFragseq fits
    have tail : sequence.tail = trial.rest := by
      have copy : ¬trial.call.inlineFrag = true := by
        change ¬trial.inlineFrag = true
        simp [mode]
      rw [created.tail, CreateCall.seqTail, if_neg copy, seqLen, ← room, List.drop_left]
    have carried : sequence.payload trial.isSubelem =
        (trial.payloadBuff.drop (prepayloadLeadBytes trial.call.idExt)).take
          trial.payload.length := by
      rw [prepayload]
      exact created.payload
    rw [ready.roundTrips_iff_payload created (checked.trans ran) tail ?_, carried]
    · rfl
    · rw [carried]
      simp only [List.length_take, List.length_drop]
      omega
  · have failed := checked.trans (ready.fragments.writeFragseq_fault mode (Nat.not_le.1 enough))
    constructor
    · rintro ⟨params, buffer, -, ran, -⟩
      rw [failed] at ran
      cases ran
    · intro shifted
      have required := ready.fragments.required
      have lead : prepayloadLeadBytes trial.call.idExt ≤ 3 := by
        unfold prepayloadLeadBytes
        split <;> decide
      have size := congrArg List.length shifted
      simp only [List.length_take, List.length_drop] at size
      omega

/-- The payload survives its fragmentation in the inline mode; in the copy mode it does
where it also stands behind as many bytes as the lead's header has. -/
theorem roundTrips_iff_shifted (trial : Trial) (ready : trial.Ready) :
    trial.RoundTrips ↔ trial.inlineFrag = true ∨ trial.Shifted := by
  cases mode : trial.inlineFrag with
  | true => simp [ready.inline_roundTrips mode]
  | false => simp [ready.copy_roundTrips_iff mode]

def exactTrial : Trial where
  inlineFrag := false
  isSubelem := false
  id := 107
  idext := 0
  subelemFragId := 0
  payload := List.replicate 256 1
  reserved := []
  rest := []
  slack := []
  room := List.replicate 260 0

theorem exactTrial_ready : exactTrial.Ready where
  fragments := ⟨by decide +kernel, by decide +kernel⟩
  header := by decide +kernel
  spare := by decide +kernel
  room := by decide +kernel
  units := .nil
  ends := by decide +kernel

theorem exactTrial_not_roundTrips :
    ¬∀ trial : Trial, trial.Ready → trial.RoundTrips := by
  intro claimed
  obtain ⟨params, buffer, -, ran, -⟩ := claimed exactTrial exactTrial_ready
  have failed : exactTrial.call.createFragseq = .error .outOfBounds := by decide +kernel
  rw [failed] at ran
  cases ran

def inlineTrial : Trial where
  inlineFrag := true
  isSubelem := false
  id := 255
  idext := 106
  subelemFragId := 0
  payload := List.replicate 256 1
  reserved := [0, 0, 0]
  rest := [48, 1, 7]
  slack := [0, 0]
  room := []

theorem inlineTrial_roundTrips_iff :
    inlineTrial.RoundTrips ↔ inlineTrial.inlineFrag = true ∨ inlineTrial.Shifted :=
  roundTrips_iff_shifted inlineTrial
    { fragments := ⟨by decide +kernel, by decide +kernel⟩
      header := by decide +kernel
      spare := by decide +kernel
      room := by decide +kernel
      units := .cons 48 [7] (by decide) .nil
      ends := by decide +kernel }

end Trial

end VendorModules.Fragseq
