import VendorModules.Rmnet.Deaggregate

namespace VendorModules.Rmnet

open Lib

/-! The frames of a byte stream. -/

def headerOf : List UInt8 → Option MapHeader
  | b₀ :: b₁ :: b₂ :: b₃ :: _ => some (.ofBytes b₀ b₁ b₂ b₃)
  | _ => none

/-- The length of the frame that a byte stream starts with, none when there is no header,
the frame is empty, or its length takes a type byte that is missing. -/
def frameLen (format : DataFormat) (bytes : List UInt8) : Option Nat :=
  match headerOf bytes with
  | none => none
  | some maph =>
    if maph.pktLen = 0 then none else packetLen format maph bytes[sizeofMapHeader]?

def framesUpTo (format : DataFormat) : Nat → List UInt8 → List (List UInt8)
  | 0, _ => []
  | limit + 1, bytes =>
    match frameLen format bytes with
    | none => []
    | some len =>
      if len ≤ bytes.length then bytes.take len :: framesUpTo format limit (bytes.drop len)
      else []

def frames (format : DataFormat) (bytes : List UInt8) : List (List UInt8) :=
  framesUpTo format bytes.length bytes

def remainder (format : DataFormat) (bytes : List UInt8) : List UInt8 :=
  bytes.drop (frames format bytes).flatten.length

/-- A byte stream that is just the header of a frame that is not empty and whose length
takes the type byte. -/
def BareHeader (format : DataFormat) (bytes : List UInt8) : Prop :=
  bytes.length = sizeofMapHeader ∧ ∃ maph, headerOf bytes = some maph ∧ maph.pktLen ≠ 0 ∧
    format.mapCksumv4 = false ∧ hasNextHdr format maph = true

variable {format : DataFormat} {bytes : List UInt8}

theorem packetLen_ge {maph : MapHeader} {type : Option UInt8} {len : Nat}
    (found : packetLen format maph type = some len) : sizeofMapHeader ≤ len := by
  unfold packetLen at found
  split_ifs at found
  · cases found
    omega
  · obtain ⟨byte, -, rfl⟩ := Option.map_eq_some_iff.mp found
    omega
  · cases found
    omega

theorem frameLen_ge {len : Nat} (found : frameLen format bytes = some len) :
    sizeofMapHeader ≤ len := by
  unfold frameLen at found
  split at found
  · cases found
  · split_ifs at found
    exact packetLen_ge found

theorem length_of_headerOf {maph : MapHeader} (found : headerOf bytes = some maph) :
    sizeofMapHeader ≤ bytes.length := by
  unfold headerOf at found
  split at found
  · simp [sizeofMapHeader]
  · cases found

theorem bareHeader_of_packetLen {maph : MapHeader} (header : headerOf bytes = some maph)
    (nonempty : maph.pktLen ≠ 0)
    (unknown : packetLen format maph bytes[sizeofMapHeader]? = none) :
    BareHeader format bytes := by
  unfold packetLen at unknown
  split_ifs at unknown with v4 next
  have short : bytes.length ≤ sizeofMapHeader := by simpa using unknown
  exact ⟨Nat.le_antisymm short (length_of_headerOf header), maph, header, nonempty,
    by simpa using v4, next⟩

theorem packetLen_of_bareHeader (bare : BareHeader format bytes) :
    ∃ maph, headerOf bytes = some maph ∧ maph.pktLen ≠ 0 ∧
      packetLen format maph bytes[sizeofMapHeader]? = none := by
  obtain ⟨length, maph, header, nonempty, v4, next⟩ := bare
  refine ⟨maph, header, nonempty, ?_⟩
  simp [packetLen, v4, next, length]

theorem framesUpTo_limit {limit limit' : Nat} (enough : bytes.length ≤ limit)
    (enough' : bytes.length ≤ limit') :
    framesUpTo format limit bytes = framesUpTo format limit' bytes := by
  induction limit generalizing limit' bytes with
  | zero =>
    have none : bytes = [] := List.eq_nil_of_length_eq_zero (Nat.le_zero.mp enough)
    subst none
    cases limit' <;> simp [framesUpTo, frameLen, headerOf]
  | succ limit ih =>
    cases limit' with
    | zero =>
      have none : bytes = [] := List.eq_nil_of_length_eq_zero (Nat.le_zero.mp enough')
      subst none
      simp [framesUpTo, frameLen, headerOf]
    | succ limit' =>
      simp only [framesUpTo]
      cases found : frameLen format bytes with
      | none => rfl
      | some len =>
        have := frameLen_ge found
        simp only [sizeofMapHeader] at this
        simp only
        split_ifs with fits
        · rw [ih (by simp; omega) (show (bytes.drop len).length ≤ limit' by simp; omega)]
        · rfl

theorem frames_cons {len : Nat} (found : frameLen format bytes = some len)
    (fits : len ≤ bytes.length) :
    frames format bytes = bytes.take len :: frames format (bytes.drop len) := by
  have := frameLen_ge found
  simp only [sizeofMapHeader] at this
  unfold frames
  cases length : bytes.length with
  | zero => omega
  | succ limit =>
    simp only [framesUpTo, found]
    rw [if_pos fits, framesUpTo_limit (by simp; omega) (le_refl (bytes.drop len).length)]

theorem frames_nil (short : ∀ len, frameLen format bytes = some len → bytes.length < len) :
    frames format bytes = [] := by
  unfold frames
  cases length : bytes.length with
  | zero => rfl
  | succ limit =>
    simp only [framesUpTo]
    cases found : frameLen format bytes with
    | none => rfl
    | some len =>
      have := short len found
      simp only
      rw [if_neg (by omega)]

theorem remainder_cons {len : Nat} (found : frameLen format bytes = some len)
    (fits : len ≤ bytes.length) :
    remainder format bytes = remainder format (bytes.drop len) := by
  unfold remainder
  rw [frames_cons found fits]
  simp [fits]

theorem remainder_nil (short : ∀ len, frameLen format bytes = some len → bytes.length < len) :
    remainder format bytes = bytes := by
  unfold remainder
  rw [frames_nil short]
  rfl

theorem frames_flatten (format : DataFormat) (bytes : List UInt8) :
    (frames format bytes).flatten ++ remainder format bytes = bytes := by
  generalize same : bytes.length = length
  induction length using Nat.strongRecOn generalizing bytes with
  | ind length ih =>
    by_cases whole : ∃ len, frameLen format bytes = some len ∧ len ≤ bytes.length
    · obtain ⟨len, found, fits⟩ := whole
      have := frameLen_ge found
      simp only [sizeofMapHeader] at this
      rw [frames_cons found fits, remainder_cons found fits, List.flatten_cons,
        List.append_assoc, ih _ (by simp; omega) _ rfl]
      exact List.take_append_drop len bytes
    · have short : ∀ len, frameLen format bytes = some len → bytes.length < len :=
        fun len found => Nat.lt_of_not_le fun fits => whole ⟨len, found, fits⟩
      rw [frames_nil short, remainder_nil short]
      rfl

end VendorModules.Rmnet
