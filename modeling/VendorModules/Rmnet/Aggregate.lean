import VendorModules.Rmnet.Frames

namespace VendorModules.Rmnet

/-! QMAP frames of whole buffers: what is sent is framed packet by packet, and what
is received is taken apart again. -/

/-- The fields of a header that is otherwise zero; `pkt_len` takes 16 bits. -/
def mapHeaderBytes (nextHdr : Bool) (padLen pktLen : Nat) : List UInt8 :=
  [.ofNat (padLen % 64 + if nextHdr then 64 else 0), 0, .ofNat (pktLen / 256), .ofNat pktLen]

/-- `ALIGN(len, 4) - len` -/
def padding (len : Nat) : Nat := (len + 3) / 4 * 4 - len

/-- `rmnet_map_add_map_header`; without `pad` for `RMNET_MAP_NO_PAD_BYTES`. -/
def addMapHeader (format : DataFormat) (pad : Bool) (tailroom hdrlen : Nat) (skb : List UInt8) :
    Option (List UInt8) :=
  let mapDatalen := skb.length - hdrlen
  let padding := padding mapDatalen
  if pad = false then some (mapHeaderBytes format.mapCksumv5 0 mapDatalen ++ skb)
  else if padding ≠ 0 ∧ tailroom < padding then none
  else
    some (mapHeaderBytes format.mapCksumv5 padding (mapDatalen + padding) ++ skb ++
      List.replicate padding 0)

inductive DeaggResult
  | nothing
  | buffer
  | packet (skbn rest : List UInt8)
  deriving DecidableEq

def coalescing (skb : List UInt8) : Prop := (skb.getD sizeofMapHeader 0).toNat / 2 = 1

instance (skb : List UInt8) : Decidable (coalescing skb) := inferInstanceAs (Decidable (_ = _))

def nextHdrOf (format : DataFormat) (maph : MapHeader) : Bool :=
  !format.mapCksumv4 && format.mapCksumv5 && !maph.cdBit

def packetLenOf (format : DataFormat) (maph : MapHeader) : Nat :=
  maph.pktLen + sizeofMapHeader +
    if format.mapCksumv4 then sizeofCsumTrailer
    else if nextHdrOf format maph then sizeofCsumHeader else 0

/-- `rmnet_map_deaggregate`; less than a header is too short for any frame. -/
def mapDeaggregate (format : DataFormat) (alloc : Bool) (skb : List UInt8) : DeaggResult :=
  match headerOf skb with
  | none => .nothing
  | some maph =>
    if skb.length < packetLenOf format maph then .nothing
    else if maph.pktLen = 0 then .nothing
    else if nextHdrOf format maph ∧ coalescing skb then .buffer
    else if alloc = false then .nothing
    else .packet (skb.take (packetLenOf format maph)) (skb.drop (packetLenOf format maph))

/-- The calls until one returns nothing or the buffer itself, at most so many: the
packets, what is left, and whether the last call returned the buffer. -/
def deaggregateCalls (format : DataFormat) (alloc : Nat → Bool) :
    Nat → List UInt8 → Option (List (List UInt8) × List UInt8 × Bool)
  | 0, _ => none
  | limit + 1, skb =>
    match mapDeaggregate format (alloc limit) skb with
    | .nothing => some ([], skb, false)
    | .buffer => some ([], skb, true)
    | .packet skbn rest =>
      (deaggregateCalls format alloc limit rest).map fun (packets, left, buffer) =>
        (skbn :: packets, left, buffer)

structure SentPacket where
  csum : List UInt8
  data : List UInt8

structure SentPacket.Ready (format : DataFormat) (sent : SentPacket) : Prop where
  nonempty : sent.data ≠ []
  small : sent.data.length ≤ 65532
  csum : sent.csum.length = if format.mapCksumv5 then sizeofCsumHeader else 0
  type : (sent.csum.getD 0 0).toNat / 2 ≠ 1

def SentPacket.Framed (sent : SentPacket) (frame : List UInt8) : Prop :=
  ∃ b₀ b₁ b₂ b₃, (MapHeader.ofBytes b₀ b₁ b₂ b₃).padLen < 4 ∧
    frame = [b₀, b₁, b₂, b₃] ++ sent.csum ++ sent.data ++
      List.replicate (MapHeader.ofBytes b₀ b₁ b₂ b₃).padLen 0

def SentPacket.frame (format : DataFormat) (pad : Bool) (tailroom : Nat) (sent : SentPacket) :
    Option (List UInt8) :=
  addMapHeader format pad tailroom (if format.mapCksumv5 then sizeofCsumHeader else 0)
    (sent.csum ++ sent.data)

theorem padding_spec (len : Nat) : padding len < 4 ∧ 4 ∣ len + padding len := by
  unfold padding
  omega

theorem ofBytes_mapHeaderBytes (nextHdr : Bool) {padLen pktLen : Nat} (low : padLen < 4)
    (small : pktLen < 65536) :
    ∃ b₀ b₁ b₂ b₃, mapHeaderBytes nextHdr padLen pktLen = [b₀, b₁, b₂, b₃] ∧
      (MapHeader.ofBytes b₀ b₁ b₂ b₃).padLen = padLen ∧
      (MapHeader.ofBytes b₀ b₁ b₂ b₃).cdBit = false ∧
      (MapHeader.ofBytes b₀ b₁ b₂ b₃).pktLen = pktLen := by
  refine ⟨_, _, _, _, rfl, ?_, ?_, ?_⟩
  · simp only [MapHeader.ofBytes, UInt8.toNat_ofNat']
    split <;> omega
  · simp only [MapHeader.ofBytes, UInt8.toNat_ofNat', Nat.testBit_eq_decide_div_mod_eq]
    simp only [decide_eq_false_iff_not]
    split <;> omega
  · simp only [MapHeader.ofBytes, ntohs, UInt8.toNat_ofNat']
    omega

variable {format : DataFormat} {pad : Bool} {tailroom : Nat} {sent : SentPacket}
  {frame rest : List UInt8}

theorem SentPacket.Ready.header (ready : sent.Ready format)
    (framed : sent.frame format pad tailroom = some frame) :
    ∃ b₀ b₁ b₂ b₃, (MapHeader.ofBytes b₀ b₁ b₂ b₃).padLen < 4 ∧
      (MapHeader.ofBytes b₀ b₁ b₂ b₃).cdBit = false ∧
      (MapHeader.ofBytes b₀ b₁ b₂ b₃).pktLen =
        sent.data.length + (MapHeader.ofBytes b₀ b₁ b₂ b₃).padLen ∧
      frame = [b₀, b₁, b₂, b₃] ++ sent.csum ++ sent.data ++
        List.replicate (MapHeader.ofBytes b₀ b₁ b₂ b₃).padLen 0 := by
  have small := ready.small
  have datalen : (sent.csum ++ sent.data).length -
      (if format.mapCksumv5 then sizeofCsumHeader else 0) = sent.data.length := by
    rw [List.length_append, ready.csum, Nat.add_sub_cancel_left]
  obtain ⟨low, aligned⟩ := padding_spec sent.data.length
  simp only [SentPacket.frame, addMapHeader, datalen] at framed
  split at framed
  · obtain rfl := Option.some.inj framed
    obtain ⟨b₀, b₁, b₂, b₃, bytes, padLen, cdBit, pktLen⟩ :=
      ofBytes_mapHeaderBytes format.mapCksumv5 (show 0 < 4 by decide)
        (show sent.data.length < 65536 by omega)
    exact ⟨b₀, b₁, b₂, b₃, by omega, cdBit, by omega, by simp [bytes, padLen]⟩
  · split at framed
    · simp at framed
    obtain rfl := Option.some.inj framed
    obtain ⟨b₀, b₁, b₂, b₃, bytes, padLen, cdBit, pktLen⟩ :=
      ofBytes_mapHeaderBytes format.mapCksumv5 low
        (show sent.data.length + padding sent.data.length < 65536 by omega)
    exact ⟨b₀, b₁, b₂, b₃, by omega, cdBit, by omega, by simp [bytes, padLen]⟩

theorem mapDeaggregate_frame (v4 : format.mapCksumv4 = false) (ready : sent.Ready format)
    (framed : sent.frame format pad tailroom = some frame) (rest : List UInt8) :
    mapDeaggregate format true (frame ++ rest) = .packet frame rest := by
  obtain ⟨b₀, b₁, b₂, b₃, -, cdBit, pktLen, rfl⟩ := ready.header framed
  generalize (MapHeader.ofBytes b₀ b₁ b₂ b₃).padLen = padLen at pktLen ⊢
  have nonempty := List.length_pos_of_ne_nil ready.nonempty
  have csum := ready.csum
  have type := ready.type
  set skb := [b₀, b₁, b₂, b₃] ++ sent.csum ++ sent.data ++ List.replicate padLen 0 with shape
  have length : packetLenOf format (.ofBytes b₀ b₁ b₂ b₃) = skb.length := by
    simp only [packetLenOf, nextHdrOf, v4, cdBit, Bool.not_false, Bool.true_and, Bool.and_true,
      Bool.false_eq_true, if_false, shape, List.length_append, List.length_cons, List.length_nil,
      List.length_replicate, csum, pktLen, sizeofMapHeader]
    omega
  have header : headerOf (skb ++ rest) = some (.ofBytes b₀ b₁ b₂ b₃) := by
    simp [shape, headerOf]
  have plain : format.mapCksumv5 = true → ¬ coalescing (skb ++ rest) := by
    intro v5
    rw [if_pos v5] at csum
    obtain ⟨c, later, cons⟩ := List.exists_cons_of_length_pos
      (show 0 < sent.csum.length by rw [csum]; decide)
    rw [cons] at type
    simpa [coalescing, shape, sizeofMapHeader, cons] using type
  have passes : ¬ (nextHdrOf format (.ofBytes b₀ b₁ b₂ b₃) = true ∧ coalescing (skb ++ rest)) := by
    rintro ⟨next, coal⟩
    simp only [nextHdrOf, Bool.and_eq_true] at next
    exact plain next.1.2 coal
  simp only [mapDeaggregate, header, length]
  rw [if_neg (by simp), if_neg (by omega), if_neg passes, if_neg (by simp), List.take_left,
    List.drop_left]

theorem deaggregateCalls_frames (v4 : format.mapCksumv4 = false) {sent : List SentPacket}
    {frames : List (List UInt8)}
    (framed : List.Forall₂
      (fun sent frame => sent.Ready format ∧ sent.frame format pad tailroom = some frame)
      sent frames) {limit : Nat} (enough : frames.flatten.length < limit) :
    deaggregateCalls format (fun _ => true) limit frames.flatten = some (frames, [], false) := by
  induction framed generalizing limit with
  | nil =>
    obtain ⟨limit, rfl⟩ := Nat.exists_eq_add_of_lt enough
    rfl
  | cons here later ih =>
    rename_i sent frame sents frames
    cases limit with
    | zero => omega
    | succ limit =>
      have long : 0 < frame.length := by
        obtain ⟨b₀, b₁, b₂, b₃, -, -, -, rfl⟩ := here.1.header here.2
        simp
      rw [List.flatten_cons, List.length_append] at enough
      have behind := ih (show frames.flatten.length < limit by omega)
      rw [List.flatten_cons, deaggregateCalls, mapDeaggregate_frame v4 here.1 here.2]
      simp only [behind]
      rfl

theorem mapDeaggregate_packet {alloc : Bool} {skb skbn : List UInt8}
    (called : mapDeaggregate format alloc skb = .packet skbn rest) :
    skbn ++ rest = skb ∧ skbn ≠ [] := by
  unfold mapDeaggregate at called
  split at called
  · simp at called
  rename_i maph header
  split_ifs at called with short
  obtain ⟨rfl, rfl⟩ := DeaggResult.packet.inj called
  refine ⟨List.take_append_drop _ _, List.ne_nil_of_length_pos ?_⟩
  rw [List.length_take]
  simp only [packetLenOf, sizeofMapHeader] at short ⊢
  omega

theorem mapDeaggregate_buffer {alloc : Bool} {skb : List UInt8}
    (called : mapDeaggregate format alloc skb = .buffer) :
    format.mapCksumv5 = true ∧ coalescing skb := by
  unfold mapDeaggregate at called
  split at called
  · simp at called
  split_ifs at called with _ _ whole
  obtain ⟨next, coal⟩ := whole
  simp only [nextHdrOf, Bool.and_eq_true] at next
  exact ⟨next.1.2, coal⟩

theorem deaggregateCalls_slices (format : DataFormat) (alloc : Nat → Bool) {skb : List UInt8}
    {limit : Nat} (enough : skb.length < limit) :
    ∃ packets left buffer,
      deaggregateCalls format alloc limit skb = some (packets, left, buffer) ∧
        packets.flatten ++ left = skb ∧ (∀ packet ∈ packets, packet ≠ []) ∧
        (buffer = true → format.mapCksumv5 = true ∧ coalescing left) := by
  induction limit generalizing skb with
  | zero => omega
  | succ limit ih =>
    cases called : mapDeaggregate format (alloc limit) skb with
    | nothing => exact ⟨[], skb, false, by rw [deaggregateCalls, called], rfl, by simp, by simp⟩
    | buffer =>
      exact ⟨[], skb, true, by rw [deaggregateCalls, called], rfl, by simp,
        fun _ => mapDeaggregate_buffer called⟩
    | packet skbn rest =>
      obtain ⟨split, nonempty⟩ := mapDeaggregate_packet called
      have long := List.length_pos_of_ne_nil nonempty
      have size := congrArg List.length split
      rw [List.length_append] at size
      obtain ⟨packets, left, buffer, later, slices, all, stopped⟩ :=
        ih (show rest.length < limit by omega)
      refine ⟨skbn :: packets, left, buffer, ?_, ?_, List.forall_mem_cons.mpr ⟨nonempty, all⟩,
        stopped⟩
      · rw [deaggregateCalls, called]
        simp only [later]
        rfl
      · rw [List.flatten_cons, List.append_assoc, slices, split]

/-- What is framed comes back frame by frame, and any buffer is taken apart until
nothing is returned or, for a coalescing header, the buffer itself. -/
theorem mapDeaggregate_spec (format : DataFormat) :
    (∀ pad tailroom (sent : List SentPacket) frames, format.mapCksumv4 = false →
      List.Forall₂ (fun sent frame => sent.Ready format ∧
        sent.frame format pad tailroom = some frame) sent frames →
      List.Forall₂ SentPacket.Framed sent frames ∧
        ∀ limit, frames.flatten.length < limit →
          deaggregateCalls format (fun _ => true) limit frames.flatten =
            some (frames, [], false)) ∧
    ∀ alloc skb limit, skb.length < limit → ∃ packets left buffer,
      deaggregateCalls format alloc limit skb = some (packets, left, buffer) ∧
        packets.flatten ++ left = skb ∧ (∀ packet ∈ packets, packet ≠ []) ∧
        (buffer = true → format.mapCksumv5 = true ∧ coalescing left) := by
  refine ⟨fun pad tailroom sent frames v4 framed => ⟨framed.imp fun sent frame both => ?_,
    fun limit enough => deaggregateCalls_frames v4 framed enough⟩,
    fun alloc skb limit enough => deaggregateCalls_slices format alloc enough⟩
  obtain ⟨b₀, b₁, b₂, b₃, low, -, -, shape⟩ := both.1.header both.2
  exact ⟨b₀, b₁, b₂, b₃, low, shape⟩

theorem mapDeaggregate_spec_one :
    deaggregateCalls ⟨false, true, false⟩ (fun _ => true) 13
        [0x43, 0, 0, 4, 4, 0, 0, 0, 0x2a, 0, 0, 0] =
      some ([[0x43, 0, 0, 4, 4, 0, 0, 0, 0x2a, 0, 0, 0]], [], false) :=
  ((mapDeaggregate_spec _).1 true 3 [⟨[4, 0, 0, 0], [0x2a]⟩]
    [[0x43, 0, 0, 4, 4, 0, 0, 0, 0x2a, 0, 0, 0]] rfl (.cons ⟨⟨by decide, by decide, rfl, by decide⟩, rfl⟩ .nil)).2 13 (by decide)

def skbAfter (format : DataFormat) (skb : List UInt8) : Nat → Option (List UInt8)
  | 0 => some skb
  | calls + 1 => (skbAfter format skb calls).bind fun skb =>
    match mapDeaggregate format true skb with
    | .nothing => none
    | .buffer => some skb
    | .packet _ rest => some rest

def coalesced : List UInt8 := [0, 0, 0, 1, 2, 0, 0, 0, 0x2a]

/-- A coalesced frame is returned by every call, and a frame without the version 4
trailer by none where it is expected. -/
theorem mapDeaggregate_coalesced :
    (¬ ∃ calls, skbAfter ⟨false, true, false⟩ coalesced calls = none) ∧
      (⟨[], [0x2a]⟩ : SentPacket).frame ⟨true, false, false⟩ false 0 = some [0, 0, 0, 1, 0x2a] ∧
        deaggregateCalls ⟨true, false, false⟩ (fun _ => true) 6 [0, 0, 0, 1, 0x2a] =
          some ([], [0, 0, 0, 1, 0x2a], false) := by
  refine ⟨?_, by decide, by decide⟩
  rintro ⟨calls, ended⟩
  have kept : skbAfter ⟨false, true, false⟩ coalesced calls = some coalesced := by
    clear ended
    induction calls with
    | zero => rfl
    | succ calls ih =>
      rw [skbAfter, ih]
      decide
  rw [kept] at ended
  exact absurd ended (by simp)

end VendorModules.Rmnet
