import Mathlib.Data.BitVec
import VendorModules.Rmnet.Descriptor

namespace VendorModules.Rmnet

open Lib

/-! The fragments of a descriptor and the walks over them: `rmnet_frag_pull`, `rmnet_frag_trim`,
`rmnet_frag_copy_data`, `rmnet_frag_header_ptr` and `rmnet_frag_descriptor_add_frags_from`. -/

structure RmnetFragment where
  page : Nat
  off : BitVec 32
  size : BitVec 32
  inside : off.toNat + size.toNat ≤ 2 ^ 32

def minT (a b : BitVec 32) : BitVec 32 := if a < b then a else b

theorem minT_le_right (a b : BitVec 32) : minT a b ≤ b := by
  rw [minT]
  split_ifs with less
  · exact BitVec.le_of_lt less
  · exact Nat.le_refl _

theorem toNat_minT (a b : BitVec 32) : (minT a b).toNat = min a.toNat b.toNat := by
  rw [minT]
  split_ifs with less
  · exact (Nat.min_eq_left (Nat.le_of_lt less)).symm
  · exact (Nat.min_eq_right (Nat.not_lt.mp less)).symm

namespace RmnetFragment

variable {off len size : BitVec 32}

/-- `len` bytes of the page of a fragment, from `off` bytes behind its start on. -/
def window (frag : RmnetFragment) (off len : BitVec 32) (start : off < frag.size)
    (fits : len ≤ frag.size - off) : RmnetFragment where
  page := frag.page
  off := frag.off + off
  size := len
  inside := by
    have inside := frag.inside
    rw [BitVec.lt_def] at start
    rw [BitVec.le_def, BitVec.toNat_sub_of_le (BitVec.le_of_lt start)] at fits
    rw [BitVec.toNat_add]
    omega

/-- `skb_frag_off_add` and `skb_frag_size_sub` -/
def pull (frag : RmnetFragment) (size : BitVec 32) (part : size < frag.size) : RmnetFragment :=
  frag.window size (frag.size - size) part (Nat.le_refl _)

/-- `skb_frag_size_sub` -/
def chop (frag : RmnetFragment) (eat : BitVec 32) (part : eat < frag.size) : RmnetFragment where
  page := frag.page
  off := frag.off
  size := frag.size - eat
  inside := by
    have inside := frag.inside
    rw [BitVec.toNat_sub_of_le (BitVec.le_of_lt part)]
    omega

def piece (frag : RmnetFragment) : Piece where
  page := frag.page
  off := frag.off.toNat
  size := frag.size.toNat

def read (memory : Memory) (frag : RmnetFragment) : List UInt8 := frag.piece.read memory

/-- `skb_frag_address` -/
def address (frag : RmnetFragment) : Nat × Nat := (frag.page, frag.off.toNat)

end RmnetFragment

/-- `struct rmnet_frag_descriptor` -/
structure FragDescriptor where
  frags : List RmnetFragment
  len : BitVec 32

namespace FragDescriptor

/-- `rmnet_recycle_frag_descriptor` -/
def recycle (_fragDesc : FragDescriptor) : FragDescriptor where
  frags := []
  len := 0

/-- `rmnet_frag_data_ptr` -/
def dataPtr (fragDesc : FragDescriptor) : Option (Nat × Nat) :=
  fragDesc.frags.head?.map RmnetFragment.address

/-- The loop of `rmnet_frag_pull`. -/
def pullLoop : List RmnetFragment → BitVec 32 → BitVec 32 → FragDescriptor
  | [], _, len => ⟨[], len⟩
  | frag :: frags, size, len =>
    if size = 0 then ⟨frag :: frags, len⟩
    else if part : size < frag.size then ⟨frag.pull size part :: frags, len - size⟩
    else pullLoop frags (size - frag.size) (len - frag.size)

/-- `rmnet_frag_pull` -/
def pull (fragDesc : FragDescriptor) (size : BitVec 32) : Option (Nat × Nat) × FragDescriptor :=
  if fragDesc.len ≤ size then (none, fragDesc.recycle)
  else
    let fragDesc := pullLoop fragDesc.frags size fragDesc.len
    (fragDesc.dataPtr, fragDesc)

/-- The loop of `rmnet_frag_trim`, over the fragments from the last one on. -/
def trimLoop : List RmnetFragment → BitVec 32 → BitVec 32 → FragDescriptor
  | [], _, len => ⟨[], len⟩
  | frag :: frags, eat, len =>
    if eat = 0 then ⟨(frag :: frags).reverse, len⟩
    else if part : eat < frag.size then ⟨(frag.chop eat part :: frags).reverse, len - eat⟩
    else trimLoop frags (eat - frag.size) (len - frag.size)

/-- `rmnet_frag_trim` -/
def trim (fragDesc : FragDescriptor) (size : BitVec 32) : Option (Nat × Nat) × FragDescriptor :=
  if size = 0 then (none, fragDesc.recycle)
  else if fragDesc.len ≤ size then (fragDesc.dataPtr, fragDesc)
  else
    let fragDesc := trimLoop fragDesc.frags.reverse (fragDesc.len - size) fragDesc.len
    (fragDesc.dataPtr, fragDesc)

/-- What `rmnet_frag_copy_data` and the others ask of a range. -/
def Refuses (fragDesc : FragDescriptor) (off len : BitVec 32) : Prop :=
  fragDesc.len < off ∨ fragDesc.len < len ∨ fragDesc.len < off + len

instance (fragDesc : FragDescriptor) (off len : BitVec 32) : Decidable (fragDesc.Refuses off len) :=
  inferInstanceAs (Decidable (_ ∨ _ ∨ _))

/-- The loop of `rmnet_frag_copy_data`: what is put into the buffer, piece behind piece. -/
def copyLoop (memory : Memory) : List RmnetFragment → BitVec 32 → BitVec 32 → List UInt8
  | [], _, _ => []
  | frag :: frags, off, len =>
    if len = 0 then []
    else if off < frag.size then
      let copyLen := minT len (frag.size - off)
      ((frag.read memory).drop off.toNat).take copyLen.toNat ++
        copyLoop memory frags 0 (len - copyLen)
    else copyLoop memory frags (off - frag.size) len

/-- `rmnet_frag_copy_data`: what is copied, or `-EINVAL`. -/
def copyData (memory : Memory) (fragDesc : FragDescriptor) (off len : BitVec 32) :
    Option (List UInt8) :=
  if fragDesc.Refuses off len then none else some (copyLoop memory fragDesc.frags off len)

inductive HeaderPtr where
  | address (page off : Nat)
  | buffer (bytes : List UInt8)

def HeaderPtr.read (memory : Memory) (len : Nat) : HeaderPtr → List UInt8
  | address page off => Piece.read memory ⟨page, off, len⟩
  | buffer bytes => bytes

/-- The loop of `rmnet_frag_header_ptr`: the header's place, if one fragment has all of it. -/
def headerLoop : List RmnetFragment → BitVec 32 → BitVec 32 → Option HeaderPtr
  | [], _, _ => none
  | frag :: frags, off, len =>
    if off < frag.size then
      if off + len ≤ frag.size then
        some (.address frag.page (frag.off.toNat + off.toNat))
      else none
    else headerLoop frags (off - frag.size) len

/-- `rmnet_frag_header_ptr` -/
def headerPtr (memory : Memory) (fragDesc : FragDescriptor) (off len : BitVec 32) :
    Option HeaderPtr :=
  if fragDesc.Refuses off len then none
  else
    match headerLoop fragDesc.frags off len with
    | some start => some start
    | none => (copyData memory fragDesc off len).map .buffer

inductive Errno where
  | einval
  | enomem
  deriving DecidableEq

/-- `rmnet_frag_descriptor_add_frag` -/
def addFrag (into : FragDescriptor) (allocated : Bool) (frag : RmnetFragment) :
    Option Errno × FragDescriptor :=
  if allocated then (none, ⟨into.frags ++ [frag], into.len + frag.size⟩) else (some .enomem, into)

/-- The loop of `rmnet_frag_descriptor_add_frags_from`, whose allocations are numbered from `i`
on. -/
def addFragsLoop (alloc : Nat → Bool) (into : FragDescriptor) :
    List RmnetFragment → BitVec 32 → BitVec 32 → Nat → Option Errno × FragDescriptor
  | [], _, _, _ => (none, into)
  | frag :: frags, off, len, i =>
    if len = 0 then (none, into)
    else if start : off < frag.size then
      let copyLen := minT len (frag.size - off)
      match addFrag into (alloc i) (frag.window off copyLen start (minT_le_right _ _)) with
      | (some rc, into) => (some rc, into)
      | (none, into) => addFragsLoop alloc into frags 0 (len - copyLen) (i + 1)
    else addFragsLoop alloc into frags (off - frag.size) len i

/-- `rmnet_frag_descriptor_add_frags_from` -/
def addFragsFrom (alloc : Nat → Bool) (into source : FragDescriptor) (off len : BitVec 32) :
    Option Errno × FragDescriptor :=
  if source.Refuses off len then (some .einval, into)
  else addFragsLoop alloc into source.frags off len 0

end FragDescriptor

/-! ### Bytes of fragments -/

namespace RmnetFragment

variable {memory : Memory} {off len eat : BitVec 32}

def bytes (memory : Memory) (frags : List RmnetFragment) : List UInt8 :=
  gather memory (frags.map piece)

def total (frags : List RmnetFragment) : Nat := totalSize (frags.map piece)

@[simp] theorem bytes_nil : bytes memory [] = [] := rfl

@[simp] theorem bytes_cons (frag : RmnetFragment) (frags : List RmnetFragment) :
    bytes memory (frag :: frags) = frag.read memory ++ bytes memory frags :=
  gather_cons memory frag.piece (frags.map piece)

@[simp] theorem bytes_append (front back : List RmnetFragment) :
    bytes memory (front ++ back) = bytes memory front ++ bytes memory back := by
  rw [bytes, List.map_append, gather_append]
  rfl

@[simp] theorem total_nil : total [] = 0 := rfl

@[simp] theorem total_cons (frag : RmnetFragment) (frags : List RmnetFragment) :
    total (frag :: frags) = frag.size.toNat + total frags :=
  totalSize_cons frag.piece (frags.map piece)

@[simp] theorem total_append (front back : List RmnetFragment) :
    total (front ++ back) = total front + total back := by
  rw [total, List.map_append, totalSize_append]
  rfl

theorem length_bytes (memory : Memory) (frags : List RmnetFragment) : (bytes memory frags).length = total frags :=
  length_gather memory (frags.map piece)

theorem length_read (memory : Memory) (frag : RmnetFragment) : (frag.read memory).length = frag.size.toNat :=
  Piece.length_read memory frag.piece

theorem drop_bytes_cons {frag : RmnetFragment} {n : Nat} (whole : frag.size.toNat ≤ n)
    (frags : List RmnetFragment) :
    (bytes memory (frag :: frags)).drop n = (bytes memory frags).drop (n - frag.size.toNat) := by
  have none : (frag.read memory).drop n = [] :=
    List.drop_eq_nil_of_le (by rwa [length_read])
  rw [bytes_cons, List.drop_append, none, length_read, List.nil_append]

theorem read_window (frag : RmnetFragment) (start : off < frag.size)
    (fits : len ≤ frag.size - off) :
    (frag.window off len start fits).read memory =
      ((frag.read memory).drop off.toNat).take len.toNat := by
  have inside := frag.inside
  have rest : len.toNat ≤ frag.size.toNat - off.toNat := by
    rw [← BitVec.toNat_sub_of_le (BitVec.le_of_lt start)]
    exact fits
  have place : (frag.off + off).toNat = frag.off.toNat + off.toNat := by
    have start : off.toNat < frag.size.toNat := start
    rw [BitVec.toNat_add]
    omega
  have piece : (frag.window off len start fits).piece = (frag.piece.skip off.toNat).cut len.toNat := by
    rw [RmnetFragment.piece, window, place]
    rfl
  rw [read, piece, Piece.read_cut memory _ rest, Piece.read_skip]
  rfl

theorem read_pull (frag : RmnetFragment) (part : off < frag.size) :
    (frag.pull off part).read memory = (frag.read memory).drop off.toNat := by
  rw [pull, read_window, BitVec.toNat_sub_of_le (BitVec.le_of_lt part), ← length_read memory,
    ← List.length_drop, List.take_length]

theorem read_chop (frag : RmnetFragment) (part : eat < frag.size) :
    (frag.chop eat part).read memory =
      (frag.read memory).take (frag.size.toNat - eat.toNat) := by
  rw [read, ← BitVec.toNat_sub_of_le (BitVec.le_of_lt part)]
  refine (Piece.read_cut memory frag.piece ?_ : (frag.piece.cut (frag.size - eat).toNat).read memory = _)
  rw [BitVec.toNat_sub_of_le (BitVec.le_of_lt part)]
  exact Nat.sub_le _ _

end RmnetFragment

/-! ### What the walks do -/

namespace FragDescriptor

open RmnetFragment

variable {memory : Memory} {off len size eat : BitVec 32} {frags : List RmnetFragment}

def Measured (fragDesc : FragDescriptor) : Prop := fragDesc.len.toNat = total fragDesc.frags

theorem measured_recycle (fragDesc : FragDescriptor) : fragDesc.recycle.Measured := rfl

theorem pullLoop_spec (measured : len.toNat = total frags) (fits : size.toNat ≤ total frags) :
    (pullLoop frags size len).Measured ∧
      bytes memory (pullLoop frags size len).frags = (bytes memory frags).drop size.toNat := by
  induction frags generalizing size len with
  | nil => exact ⟨measured, (List.drop_nil).symm⟩
  | cons frag frags ih =>
    rw [total_cons] at measured fits
    rw [pullLoop]
    split_ifs with done part
    · rw [done]
      exact ⟨measured, rfl⟩
    · have small : size.toNat < frag.size.toNat := part
      have less : size ≤ len := by
        rw [BitVec.le_def]
        omega
      constructor
      · change (len - size).toNat = total (frag.pull size part :: frags)
        rw [total_cons, BitVec.toNat_sub_of_le less]
        change _ = (frag.size - size).toNat + _
        rw [BitVec.toNat_sub_of_le (BitVec.le_of_lt part)]
        omega
      · change bytes memory (frag.pull size part :: frags) = _
        rw [bytes_cons, bytes_cons, read_pull, List.drop_append_of_le_length]
        rw [length_read]
        omega
    · have whole : frag.size.toNat ≤ size.toNat := Nat.not_lt.mp part
      have less : frag.size ≤ len := by
        rw [BitVec.le_def]
        omega
      have size' : (size - frag.size).toNat = size.toNat - frag.size.toNat :=
        BitVec.toNat_sub_of_le whole
      have len' : (len - frag.size).toNat = len.toNat - frag.size.toNat :=
        BitVec.toNat_sub_of_le less
      obtain ⟨measured', kept⟩ := ih (by rw [len']; omega) (by rw [size']; omega)
      refine ⟨measured', ?_⟩
      rw [kept, size', drop_bytes_cons whole]

theorem trimLoop_spec (measured : len.toNat = total frags.reverse)
    (fits : eat.toNat ≤ total frags.reverse) :
    (trimLoop frags eat len).Measured ∧
      bytes memory (trimLoop frags eat len).frags =
        (bytes memory frags.reverse).take (total frags.reverse - eat.toNat) := by
  induction frags generalizing eat len with
  | nil => exact ⟨measured, (List.take_nil).symm⟩
  | cons frag frags ih =>
    have sizes : total (frag :: frags).reverse = total frags.reverse + frag.size.toNat := by
      rw [List.reverse_cons, total_append, total_cons, total_nil, Nat.add_zero]
    have stream : bytes memory (frag :: frags).reverse =
        bytes memory frags.reverse ++ frag.read memory := by
      rw [List.reverse_cons, bytes_append, bytes_cons, bytes_nil, List.append_nil]
    rw [trimLoop]
    split_ifs with done part
    · refine ⟨measured, ?_⟩
      rw [done, ← length_bytes memory]
      exact (List.take_length).symm
    · have small : eat.toNat < frag.size.toNat := part
      rw [sizes] at measured fits
      have less : eat ≤ len := by
        rw [BitVec.le_def]
        omega
      constructor
      · change (len - eat).toNat = total (frag.chop eat part :: frags).reverse
        rw [List.reverse_cons, total_append, total_cons, total_nil, Nat.add_zero,
          BitVec.toNat_sub_of_le less]
        change _ = _ + (frag.size - eat).toNat
        rw [BitVec.toNat_sub_of_le (BitVec.le_of_lt part)]
        omega
      · change bytes memory (frag.chop eat part :: frags).reverse = _
        rw [stream, sizes, List.reverse_cons, bytes_append, bytes_cons, bytes_nil,
          List.append_nil, read_chop, List.take_append, length_bytes]
        congr 1
        · rw [List.take_of_length_le]
          rw [length_bytes]
          omega
        · congr 1
          omega
    · have whole : frag.size.toNat ≤ eat.toNat := Nat.not_lt.mp part
      rw [sizes] at measured fits
      have less : frag.size ≤ len := by
        rw [BitVec.le_def]
        omega
      have eat' : (eat - frag.size).toNat = eat.toNat - frag.size.toNat :=
        BitVec.toNat_sub_of_le whole
      have len' : (len - frag.size).toNat = len.toNat - frag.size.toNat :=
        BitVec.toNat_sub_of_le less
      obtain ⟨measured', kept⟩ := ih (by rw [len']; omega) (by rw [eat']; omega)
      refine ⟨measured', ?_⟩
      rw [kept, stream, sizes, eat', List.take_append_of_le_length]
      · congr 1
        omega
      · rw [length_bytes]
        omega

theorem copyLoop_eq : copyLoop memory frags off len =
    ((bytes memory frags).drop off.toNat).take len.toNat := by
  induction frags generalizing off len with
  | nil =>
    rw [copyLoop, bytes_nil, List.drop_nil, List.take_nil]
  | cons frag frags ih =>
    rw [copyLoop]
    split_ifs with done start
    · rw [done]
      rfl
    · have inside : off.toNat < frag.size.toNat := start
      have rest : (frag.size - off).toNat = frag.size.toNat - off.toNat :=
        BitVec.toNat_sub_of_le (BitVec.le_of_lt start)
      have copied : (minT len (frag.size - off)).toNat =
          min len.toNat (frag.size.toNat - off.toNat) := by
        rw [toNat_minT, rest]
      have less : minT len (frag.size - off) ≤ len := by
        rw [BitVec.le_def, copied]
        exact Nat.min_le_left _ _
      dsimp only
      rw [ih, BitVec.toNat_sub_of_le less, copied, bytes_cons, List.drop_append_of_le_length
        (by rw [length_read]; omega), List.take_append, List.length_drop, length_read]
      change _ ++ List.take _ (List.drop 0 _) = _
      rw [List.drop_zero]
      congr 1
      · rcases Nat.le_total len.toNat (frag.size.toNat - off.toNat) with short | long
        · rw [Nat.min_eq_left short]
        · rw [Nat.min_eq_right long, List.take_of_length_le, List.take_of_length_le]
          · rwa [List.length_drop, length_read]
          · rw [List.length_drop, length_read]
      · congr 1
        omega
    · have before : frag.size.toNat ≤ off.toNat := Nat.not_lt.mp start
      rw [ih, BitVec.toNat_sub_of_le before, drop_bytes_cons before]

theorem headerLoop_some {start : HeaderPtr} (found : headerLoop frags off len = some start)
    (word : off.toNat + len.toNat < 2 ^ 32) :
    start.read memory len.toNat = ((bytes memory frags).drop off.toNat).take len.toNat := by
  induction frags generalizing off with
  | nil => cases found
  | cons frag frags ih =>
    rw [headerLoop] at found
    split_ifs at found with here whole
    · cases found
      have inside : off.toNat < frag.size.toNat := here
      have all : off.toNat + len.toNat ≤ frag.size.toNat := by
        have whole : (off + len).toNat ≤ frag.size.toNat := whole
        rwa [BitVec.toNat_add, Nat.mod_eq_of_lt word] at whole
      rw [bytes_cons, List.drop_append_of_le_length (by rw [length_read]; omega),
        List.take_append_of_le_length (by rw [List.length_drop, length_read]; omega)]
      have part : len.toNat ≤ (frag.piece.skip off.toNat).size := by
        rw [Piece.size_skip]
        change _ ≤ frag.size.toNat - _
        omega
      rw [RmnetFragment.read, ← Piece.read_skip, ← Piece.read_cut memory _ part]
      rfl
    · have before : frag.size.toNat ≤ off.toNat := Nat.not_lt.mp here
      have off' : (off - frag.size).toNat = off.toNat - frag.size.toNat :=
        BitVec.toNat_sub_of_le before
      rw [ih found (by rw [off']; omega), off', drop_bytes_cons before]

end FragDescriptor

end VendorModules.Rmnet
