import VendorModules.PacketUtil.Buffers
import Mathlib.Data.List.Infix

/-!
# Generic blobs

A generic command buffer is a row of blobs: a word with a type and a size, and the data of the
blob in whole words behind it. The walk over them counts the bytes it has passed in a `uint32_t`,
beside the pointer it reads through.
-/

namespace VendorModules.PacketUtil

open Lib

structure Blob where
  blobType : U32
  size : U32
  pos : Nat
  deriving DecidableEq

structure BlobHandler (σ : Type) where
  bytes : σ → Nat → U8
  handle : σ → Blob → Int × σ

structure Walk (σ : Type) where
  lenRead : U32 := 0
  blobPtr : Nat := 0
  userData : σ
  handed : List Blob := []

inductive Turn (σ : Type)
  | next (walk : Walk σ)
  | returned (rc : Int) (walk : Walk σ)
  /-- The word of a blob is read behind the end of the buffer. -/
  | outside (walk : Walk σ)

def blobTypeOf (word : U32) : U32 := word &&& 0xFF#32

def blobSizeOf (word : U32) : U32 := (word &&& 0xFFFFFF00#32) >>> 8

def blobBlockSize (size : U32) : U32 := BitVec.ofNat 32 (4 + (size.toNat + 4 - 1) / 4 * 4)

section
variable {σ : Type} (handler : BlobHandler σ) (length : U32)

def handBlob (walk : Walk σ) (word : U32) : Int × Walk σ :=
  let size := blobSizeOf word
  let blob : Blob := { blobType := blobTypeOf word, size := size, pos := walk.blobPtr + 4 }
  let handled := handler.handle walk.userData blob
  (handled.1,
    { lenRead := walk.lenRead + blobBlockSize size
      blobPtr := walk.blobPtr + (blobBlockSize size).toNat / 4 * 4
      userData := handled.2, handed := walk.handed ++ [blob] })

/-- One turn of the loop of `cam_packet_util_process_generic_blob`. The bound of the loop is
computed in 64 bits, the end of the blob in 32. -/
def blobTurn (walk : Walk σ) : Turn σ :=
  if length.toNat ≤ walk.lenRead.toNat + 4 then .returned 0 walk
  else if length.toNat < walk.blobPtr + 4 then .outside walk
  else
    let word := Words.word (handler.bytes walk.userData) walk.blobPtr
    if blobSizeOf word = 0 then .returned 0 walk
    else if length < walk.lenRead + blobBlockSize (blobSizeOf word) then .returned EINVAL walk
    else
      let handled := handBlob handler walk word
      if handled.1 ≠ 0 then .returned handled.1 handled.2 else .next handled.2

def blobTurns : Nat → Walk σ → Turn σ
  | 0, walk => .next walk
  | turns + 1, walk =>
    match blobTurn handler length walk with
    | .next later => blobTurns turns later
    | stopped => stopped

/-- `cam_packet_util_process_generic_blob`, cut after a number of turns of its loop. -/
def processGenericBlob (turns : Nat) (userData : σ) : Turn σ :=
  blobTurns handler length turns { userData := userData }

end

/-- What of a buffer `cam_packet_util_process_generic_cmd_buffer` copies for the walk: from
which address on, and how many bytes. -/
def copyCmdBuffer (mem : MemMgr) (kvzalloc : Nat → Bool) (cmdBuf : CmdBufDesc) :
    Except Int (Nat × U32) :=
  if cmdBuf.length = 0 ∨ cmdBuf.size = 0 then .error EINVAL
  else
    match mem.cpuBuf cmdBuf.memHandle with
    | .error rc => .error rc
    | .ok mapped =>
      if mapped.addr = 0 ∨ mapped.len = 0 then .error 0
      else if mapped.len < 4 ∨ mapped.len - 4 < cmdBuf.offset.toNat then .error EINVAL
      else if cmdBuf.length.toNat ≤ mapped.len - cmdBuf.offset.toNat then
        if kvzalloc cmdBuf.length.toNat then
          .ok (mapped.addr + cmdBuf.offset.toNat, cmdBuf.length)
        else .error ENOMEM
      else .error EINVAL

theorem copyCmdBuffer_inside {mem : MemMgr} {kvzalloc : Nat → Bool} {cmdBuf : CmdBufDesc}
    {start : Nat} {length : U32} (copied : copyCmdBuffer mem kvzalloc cmdBuf = .ok (start, length)) :
    length = cmdBuf.length ∧ ∃ mapped, mem.cpuBuf cmdBuf.memHandle = .ok mapped ∧
      mapped.addr ≤ start ∧ start + length.toNat ≤ mapped.addr + mapped.len := by
  unfold copyCmdBuffer at copied
  split at copied
  · simp at copied
  cases answer : mem.cpuBuf cmdBuf.memHandle with
  | error rc => simp [answer] at copied
  | ok mapped =>
    simp only [answer] at copied
    split_ifs at copied with absent small fits
    simp only [Except.ok.injEq, Prod.mk.injEq] at copied
    obtain ⟨rfl, rfl⟩ := copied
    exact ⟨rfl, mapped, rfl, by omega, by omega⟩

/-! The walk, as long as its count does not wrap around. -/

theorem blobSizeOf_lt (word : U32) : (blobSizeOf word).toNat < 16777216 := by
  rw [blobSizeOf, BitVec.toNat_ushiftRight, BitVec.toNat_and, Nat.shiftRight_eq_div_pow]
  have bound : word.toNat &&& (0xFFFFFF00#32).toNat ≤ (0xFFFFFF00#32).toNat := Nat.and_le_right
  have value : (0xFFFFFF00#32).toNat = 4294967040 := rfl
  omega

theorem blobBlockSize_toNat {size : U32} (bound : size.toNat < 16777216) :
    (blobBlockSize size).toNat = 4 + (size.toNat + 3) / 4 * 4 := by
  rw [blobBlockSize, BitVec.toNat_ofNat]
  omega

section
variable {σ : Type} {handler : BlobHandler σ} {length : U32}

def blobLengthMax : Nat := 4278190080

structure Walk.Within (length : U32) (walk : Walk σ) : Prop where
  counted : walk.lenRead.toNat = walk.blobPtr
  bound : walk.blobPtr ≤ length.toNat
  handed : ∀ blob ∈ walk.handed, blob.pos + blob.size.toNat ≤ length.toNat

theorem handBlob_within {walk : Walk σ} {word : U32} (within : walk.Within length)
    (fits : walk.blobPtr + (blobBlockSize (blobSizeOf word)).toNat ≤ length.toNat) :
    (handBlob handler walk word).2.Within length ∧
      walk.blobPtr < (handBlob handler walk word).2.blobPtr := by
  have counted := within.counted
  have size_bound := blobSizeOf_lt word
  have block := blobBlockSize_toNat size_bound
  have top := length.isLt
  have sum : (walk.lenRead + blobBlockSize (blobSizeOf word)).toNat =
      walk.blobPtr + (blobBlockSize (blobSizeOf word)).toNat := by
    rw [BitVec.toNat_add, counted]
    apply Nat.mod_eq_of_lt
    omega
  refine ⟨{ counted := ?_, bound := ?_, handed := ?_ }, ?_⟩
  · simp only [handBlob, sum]
    omega
  · simp only [handBlob]
    omega
  · intro other held
    rcases List.mem_append.mp held with old | new
    · exact within.handed other old
    · rw [List.mem_singleton.mp new]
      simp only
      omega
  · simp only [handBlob]
    omega

theorem blobTurn_within (handler : BlobHandler σ) (short : length.toNat ≤ blobLengthMax)
    {walk : Walk σ}
    (within : walk.Within length) :
    (∃ rc later, blobTurn handler length walk = .returned rc later ∧ later.Within length) ∨
      ∃ later, blobTurn handler length walk = .next later ∧ later.Within length ∧
        walk.blobPtr < later.blobPtr := by
  have counted := within.counted
  unfold blobLengthMax at short
  unfold blobTurn
  split_ifs with finished beyond
  · exact Or.inl ⟨0, walk, rfl, within⟩
  · omega
  · extract_lets word handled
    split_ifs with empty long failed
    · exact Or.inl ⟨0, walk, rfl, within⟩
    · exact Or.inl ⟨EINVAL, walk, rfl, within⟩
    · -- the block ends in the length, for the sum of its start and size has not wrapped
      have fits : walk.blobPtr + (blobBlockSize (blobSizeOf word)).toNat ≤ length.toNat := by
        have size_bound := blobSizeOf_lt word
        have block := blobBlockSize_toNat size_bound
        rw [BitVec.lt_def, BitVec.toNat_add] at long
        omega
      exact Or.inl ⟨handled.1, handled.2, rfl, (handBlob_within within fits).1⟩
    · have fits : walk.blobPtr + (blobBlockSize (blobSizeOf word)).toNat ≤ length.toNat := by
        have size_bound := blobSizeOf_lt word
        have block := blobBlockSize_toNat size_bound
        rw [BitVec.lt_def, BitVec.toNat_add] at long
        omega
      exact Or.inr ⟨handled.2, rfl, handBlob_within within fits⟩

theorem blobTurns_within (handler : BlobHandler σ) (short : length.toNat ≤ blobLengthMax)
    {turns : Nat} {walk : Walk σ}
    (within : walk.Within length) (enough : length.toNat - walk.blobPtr < turns) :
    ∃ rc later, blobTurns handler length turns walk = .returned rc later ∧
      later.Within length := by
  induction turns generalizing walk with
  | zero => omega
  | succ turns ih =>
    rcases blobTurn_within handler short within with
      ⟨rc, later, turned, inside⟩ | ⟨later, turned, inside, further⟩
    · exact ⟨rc, later, by simp only [blobTurns, turned], inside⟩
    · have bound := inside.bound
      obtain ⟨rc, last, run, done⟩ := ih inside (by omega)
      exact ⟨rc, last, by simp only [blobTurns, turned, run], done⟩

def Walks (length : U32) : Prop :=
  ∀ (σ : Type) (handler : BlobHandler σ) (userData : σ), ∃ turns rc walk,
    processGenericBlob handler length turns userData = .returned rc walk ∧
      ∀ blob ∈ walk.handed, blob.pos + blob.size.toNat ≤ length.toNat

theorem Walks.of_short (short : length.toNat ≤ blobLengthMax) : Walks length := by
  intro σ handler userData
  have start : ({ userData := userData } : Walk σ).Within length :=
    { counted := rfl, bound := Nat.zero_le _, handed := fun blob held => nomatch held }
  obtain ⟨rc, walk, run, within⟩ :=
    blobTurns_within handler short start (Nat.lt_succ_of_le (Nat.sub_le length.toNat 0))
  exact ⟨_, rc, walk, run, within.handed⟩

end

/-! A longer buffer can be filled so that the walk wraps around: with small blobs up to `wrapAt`,
and the largest one there. -/

/-- A blob of eight bytes, then blobs of four bytes, and the largest blob at `wrapAt`. -/
def wrapWords (wrapAt : Nat) (k : Nat) : U32 :=
  if 4 * k = wrapAt then 0xFFFFFF00#32 else if k = 0 then 0x800#32 else 0x400#32

/-- It fails as soon as it is handed a blob that ends behind `length`. -/
def strict (wrapAt : Nat) (length : U32) : BlobHandler Unit :=
  { bytes := fun _ => Words.spread (wrapWords wrapAt)
    handle := fun _ blob => (if blob.pos + blob.size.toNat ≤ length.toNat then 0 else EINVAL, ()) }

section
variable {length : U32} {wrapAt : Nat}

theorem strict_word {pos : Nat} (whole : pos % 4 = 0) :
    Words.word ((strict wrapAt length).bytes ()) pos = wrapWords wrapAt (pos / 4) := by
  have same : 4 * (pos / 4) = pos := by omega
  conv_lhs => rw [← same]
  exact Words.word_spread (wrapWords wrapAt) (pos / 4)

theorem blobTurns_succ_of_next {σ : Type} {handler : BlobHandler σ} {turns : Nat}
    {walk later : Walk σ} (run : blobTurns handler length turns walk = .next later) :
    blobTurns handler length (turns + 1) walk = blobTurn handler length later := by
  induction turns generalizing walk with
  | zero =>
    cases run
    simp only [blobTurns]
    cases blobTurn handler length later <;> rfl
  | succ turns ih =>
    rw [blobTurns] at run ⊢
    cases turned : blobTurn handler length walk with
    | next between =>
      rw [turned] at run
      exact ih run
    | returned rc last => simp [turned] at run
    | outside last => simp [turned] at run

theorem blobTurns_returned_unique {σ : Type} {handler : BlobHandler σ} {first second : Nat}
    {walk last other : Walk σ} {rc rc' : Int}
    (run : blobTurns handler length first walk = .returned rc last)
    (run' : blobTurns handler length second walk = .returned rc' other) : last = other := by
  induction first generalizing second walk with
  | zero => simp [blobTurns] at run
  | succ first ih =>
    cases second with
    | zero => simp [blobTurns] at run'
    | succ second =>
      rw [blobTurns] at run run'
      cases turned : blobTurn handler length walk with
      | next between =>
        rw [turned] at run run'
        exact ih run run'
      | returned rc stopped =>
        simp only [turned, Turn.returned.injEq] at run run'
        exact run.2.symm.trans run'.2
      | outside stopped => simp [turned] at run

/-- The walk comes to `pos`. -/
def Comes (wrapAt : Nat) (length : U32) (pos : Nat) : Prop :=
  ∃ turns walk, processGenericBlob (strict wrapAt length) length turns () = .next walk ∧
    walk.lenRead.toNat = pos ∧ walk.blobPtr = pos

theorem Comes.small {pos : Nat} {size : U32} (comes : Comes wrapAt length pos) (whole : pos % 4 = 0)
    (word : blobSizeOf (wrapWords wrapAt (pos / 4)) = size) (some_size : 0 < size.toNat)
    (small : size.toNat ≤ 8) (room : pos + 4 + (size.toNat + 3) / 4 * 4 ≤ length.toNat) :
    Comes wrapAt length (pos + 4 + (size.toNat + 3) / 4 * 4) := by
  obtain ⟨turns, walk, run, counted, pointed⟩ := comes
  have top := length.isLt
  have block : (blobBlockSize size).toNat = 4 + (size.toNat + 3) / 4 * 4 :=
    blobBlockSize_toNat (by omega)
  have read : blobSizeOf (Words.word ((strict wrapAt length).bytes walk.userData) walk.blobPtr) =
      size := by
    rw [pointed, strict_word whole, word]
  have sum : (walk.lenRead + blobBlockSize size).toNat = pos + (blobBlockSize size).toNat := by
    rw [BitVec.toNat_add, counted]
    omega
  have more : ¬length.toNat ≤ walk.lenRead.toNat + 4 := by omega
  have readable : ¬length.toNat < walk.blobPtr + 4 := by omega
  have present : ¬size = 0 := by
    intro zero
    simp [zero] at some_size
  have ends : ¬length < walk.lenRead + blobBlockSize size := by
    rw [BitVec.lt_def, sum]
    omega
  have inside : walk.blobPtr + 4 + size.toNat ≤ length.toNat := by omega
  refine ⟨turns + 1, (handBlob (strict wrapAt length) walk
    (Words.word ((strict wrapAt length).bytes walk.userData) walk.blobPtr)).2, ?_, ?_, ?_⟩
  · rw [processGenericBlob, blobTurns_succ_of_next run]
    have accepted : (handBlob (strict wrapAt length) walk
        (Words.word ((strict wrapAt length).bytes walk.userData) walk.blobPtr)).1 = 0 := by
      simp only [handBlob, read]
      exact if_pos inside
    simp only [blobTurn, more, readable, if_false, read, present, ends, accepted, ne_eq,
      not_true_eq_false]
  · simp only [handBlob, read, sum]
    omega
  · simp only [handBlob, read]
    omega

theorem blobSizeOf_largest : blobSizeOf 0xFFFFFF00#32 = 0xFFFFFF#32 := rfl

theorem Comes.wraps (comes : Comes wrapAt length wrapAt) (whole : wrapAt % 4 = 0)
    (more : wrapAt + 4 < length.toNat) (wraps : 4294967296 ≤ wrapAt + 16777220)
    (behind : length.toNat < wrapAt + 16777219) : ¬Walks length := by
  obtain ⟨turns, walk, run, counted, pointed⟩ := comes
  intro walks
  have top := length.isLt
  have read : Words.word ((strict wrapAt length).bytes walk.userData) walk.blobPtr =
      0xFFFFFF00#32 := by
    rw [pointed, strict_word whole, wrapWords, if_pos (by omega)]
  have block : (blobBlockSize 0xFFFFFF#32).toNat = 16777220 := rfl
  have goes_on : ¬length.toNat ≤ walk.lenRead.toNat + 4 := by omega
  have readable : ¬length.toNat < walk.blobPtr + 4 := by omega
  have present : ¬0xFFFFFF#32 = 0 := by decide
  have ends : ¬length < walk.lenRead + blobBlockSize 0xFFFFFF#32 := by
    rw [BitVec.lt_def, BitVec.toNat_add, counted, block]
    omega
  have outside : ¬walk.blobPtr + 4 + (0xFFFFFF#32).toNat ≤ length.toNat := by
    rw [pointed, show (0xFFFFFF#32).toNat = 16777215 from rfl]
    omega
  have failed : ¬EINVAL = 0 := by decide
  have last : processGenericBlob (strict wrapAt length) length (turns + 1) () =
      .returned EINVAL (handBlob (strict wrapAt length) walk 0xFFFFFF00#32).2 := by
    rw [processGenericBlob, blobTurns_succ_of_next run]
    simp only [blobTurn, goes_on, readable, if_false, read, blobSizeOf_largest, present, ends]
    simp only [handBlob, blobSizeOf_largest, strict, outside, if_false, ne_eq, failed,
      not_false_eq_true, if_true]
  obtain ⟨other_turns, rc, other, run', inside⟩ := walks Unit (strict wrapAt length) ()
  have same := blobTurns_returned_unique last run'
  rw [← same] at inside
  apply outside
  exact inside _ (List.mem_append_right _ (List.mem_singleton_self _))

theorem comes_to (j : Nat) (room : 12 + 8 * j + 4 < length.toNat) (before : 12 + 8 * j ≤ wrapAt) :
    Comes wrapAt length (12 + 8 * j) := by
  induction j with
  | zero =>
    have start : Comes wrapAt length 0 := ⟨0, _, rfl, rfl, rfl⟩
    have word : blobSizeOf (wrapWords wrapAt (0 / 4)) = 8#32 := by
      rw [wrapWords, if_neg (by omega), if_pos rfl]
      rfl
    exact start.small rfl word (by decide) (by decide) (by simp; omega)
  | succ j ih =>
    have here := ih (by omega) (by omega)
    have word : blobSizeOf (wrapWords wrapAt ((12 + 8 * j) / 4)) = 4#32 := by
      rw [wrapWords, if_neg (by omega), if_neg (by omega)]
      rfl
    exact here.small (by omega) word (by decide) (by decide) (by simp; omega)

end

theorem walks_iff {length : U32} : Walks length ↔ length.toNat ≤ blobLengthMax := by
  constructor
  · intro walks
    by_contra long
    unfold blobLengthMax at long
    have top := length.isLt
    by_cases largest : length.toNat = 4294967295
    · have comes : Comes 4278190084 length (12 + 8 * 534773759) :=
        comes_to 534773759 (by omega) (by omega)
      exact comes.wraps (by decide) (by omega) (by omega) (by omega) walks
    · have comes : Comes 4278190076 length (12 + 8 * 534773758) :=
        comes_to 534773758 (by omega) (by omega)
      exact comes.wraps (by decide) (by omega) (by omega) (by omega) walks
  · exact Walks.of_short

end VendorModules.PacketUtil
