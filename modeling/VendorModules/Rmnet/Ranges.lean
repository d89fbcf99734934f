import VendorModules.Rmnet.Fragments

namespace VendorModules.Rmnet

open Lib

/-! The walks over a descriptor compared with `drop`, `take` and `slice` on its bytes. -/

namespace RmnetFragment

/-- How many of the fragments, which begin at `start`, have a byte in the range from `first` to
before `last`. -/
def touched (first last : Nat) : Nat → List RmnetFragment → Nat
  | _, [] => 0
  | start, frag :: frags =>
    (if max start first < min (start + frag.size.toNat) last then 1 else 0) +
      touched first last (start + frag.size.toNat) frags

theorem touched_of_le {first last start : Nat} (passed : last ≤ max start first)
    (frags : List RmnetFragment) : touched first last start frags = 0 := by
  induction frags generalizing start with
  | nil => rfl
  | cons frag frags ih =>
    rw [touched, if_neg (by omega), ih (by omega)]

end RmnetFragment

namespace FragDescriptor

open RmnetFragment

variable {memory : Memory} {alloc : Nat → Bool} {fragDesc into : FragDescriptor}
variable {off len size : BitVec 32} {frags : List RmnetFragment} {i : Nat}

theorem forall_lt_succ_iff {n : Nat} :
    (∀ j < 1 + n, alloc (i + j) = true) ↔ alloc i = true ∧ ∀ j < n, alloc (i + 1 + j) = true := by
  constructor
  · intro all
    refine ⟨all 0 (by omega), fun j below => ?_⟩
    have later := all (1 + j) (by omega)
    rwa [← Nat.add_assoc] at later
  · intro all j below
    cases j with
    | zero => exact all.1
    | succ j =>
      have later := all.2 j (by omega)
      rwa [Nat.add_assoc, Nat.add_comm 1] at later

theorem addFragsLoop_spec {first last start : Nat} (place : off.toNat = first - start)
    (rest : len.toNat = last - max start first) :
    ((addFragsLoop alloc into frags off len i).1 = none ↔
      ∀ j < touched first last start frags, alloc (i + j) = true) ∧
    ((addFragsLoop alloc into frags off len i).1 = none →
      bytes memory (addFragsLoop alloc into frags off len i).2.frags =
        bytes memory into.frags ++ ((bytes memory frags).drop off.toNat).take len.toNat ∧
      (addFragsLoop alloc into frags off len i).2.len.toNat =
        (into.len.toNat + min len.toNat (total frags - off.toNat)) % 2 ^ 32) := by
  induction frags generalizing into off len start i with
  | nil =>
    have word := into.len.isLt
    refine ⟨⟨fun _ j below => absurd below (Nat.not_lt_zero j), fun _ => rfl⟩, fun _ => ?_⟩
    rw [addFragsLoop, bytes_nil, List.drop_nil, List.take_nil, List.append_nil, total_nil,
      Nat.zero_sub, Nat.min_zero, Nat.add_zero, Nat.mod_eq_of_lt word]
    exact ⟨rfl, rfl⟩
  | cons frag frags ih =>
    rw [addFragsLoop]
    split_ifs with done inside
    · have none : len.toNat = 0 := by rw [done]; rfl
      have word := into.len.isLt
      rw [touched_of_le (by omega), none, List.take_zero, List.append_nil, Nat.zero_min,
        Nat.add_zero, Nat.mod_eq_of_lt word]
      exact ⟨⟨fun _ j below => absurd below (Nat.not_lt_zero j), fun _ => rfl⟩,
        fun _ => ⟨rfl, rfl⟩⟩
    · have some : len.toNat ≠ 0 := fun none => done (BitVec.eq_of_toNat_eq none)
      have inside' : off.toNat < frag.size.toNat := inside
      have hit : max start first < min (start + frag.size.toNat) last := by omega
      have behind : (frag.size - off).toNat = frag.size.toNat - off.toNat :=
        BitVec.toNat_sub_of_le (BitVec.le_of_lt inside)
      have copied : (minT len (frag.size - off)).toNat =
          min len.toNat (frag.size.toNat - off.toNat) := by
        rw [toNat_minT, behind]
      have less : minT len (frag.size - off) ≤ len := by
        rw [BitVec.le_def, copied]
        exact Nat.min_le_left _ _
      have len' := BitVec.toNat_sub_of_le less
      rw [copied] at len'
      rw [touched, if_pos hit, forall_lt_succ_iff]
      dsimp only
      rw [addFrag]
      by_cases allocated : alloc i = true
      · rw [if_pos allocated]
        dsimp only
        obtain ⟨succeeds, adds⟩ := @ih
          ⟨into.frags ++ [frag.window off (minT len (frag.size - off)) inside
            (minT_le_right _ _)], into.len + minT len (frag.size - off)⟩ 0
          (len - minT len (frag.size - off)) (i + 1) (start + frag.size.toNat)
          (by change 0 = _; omega) (by rw [len']; omega)
        refine ⟨succeeds.trans (and_iff_right allocated).symm, fun success => ?_⟩
        obtain ⟨added, counted⟩ := adds success
        constructor
        · have whole := @copyLoop_eq memory off len (frag :: frags)
          rw [copyLoop, if_neg done, if_pos inside] at whole
          dsimp only at whole
          rw [copyLoop_eq] at whole
          refine added.trans ?_
          rw [bytes_append, bytes_cons, bytes_nil, List.append_nil, read_window,
            List.append_assoc, whole]
        · refine counted.trans ?_
          rw [len', BitVec.toNat_add, copied, Nat.mod_add_mod, total_cons]
          change (_ + min _ (total frags - 0)) % _ = _
          congr 1
          omega
      · rw [if_neg allocated]
        refine ⟨⟨fun success => (by cases success), fun all => absurd all.1 allocated⟩,
          fun success => by cases success⟩
    · have before : frag.size.toNat ≤ off.toNat := Nat.not_lt.mp inside
      have off' : (off - frag.size).toNat = off.toNat - frag.size.toNat :=
        BitVec.toNat_sub_of_le before
      have miss : ¬max start first < min (start + frag.size.toNat) last := by omega
      obtain ⟨succeeds, adds⟩ := @ih into (off - frag.size) len i (start + frag.size.toNat)
        (by omega) (by
          have some : len.toNat ≠ 0 := fun none => done (BitVec.eq_of_toNat_eq none)
          omega)
      rw [touched, if_neg miss, Nat.zero_add]
      refine ⟨succeeds, fun success => ?_⟩
      obtain ⟨added, counted⟩ := adds success
      rw [drop_bytes_cons before, ← off', total_cons]
      refine ⟨added, ?_⟩
      rw [counted, off']
      congr 3
      omega

/-! ### What is refused -/

/-- A range that begins and is no longer than the data does, and still is longer than a word can
count. -/
def Wraps (fragDesc : FragDescriptor) (off len : BitVec 32) : Prop :=
  off ≤ fragDesc.len ∧ len ≤ fragDesc.len ∧ 2 ^ 32 ≤ off.toNat + len.toNat

theorem refuses_iff (plain : ¬fragDesc.Wraps off len) :
    fragDesc.Refuses off len ↔ ¬off.toNat + len.toNat ≤ fragDesc.len.toNat := by
  have word := fragDesc.len.isLt
  have sum := BitVec.toNat_add off len
  rw [Wraps, BitVec.le_def, BitVec.le_def] at plain
  rw [Refuses, BitVec.lt_def, BitVec.lt_def, BitVec.lt_def, sum]
  omega

theorem Wraps.not_refuses (wraps : fragDesc.Wraps off len) : ¬fragDesc.Refuses off len := by
  have word := fragDesc.len.isLt
  have sum := BitVec.toNat_add off len
  obtain ⟨first, short, beyond⟩ := wraps
  rw [BitVec.le_def] at first short
  rw [Refuses, BitVec.lt_def, BitVec.lt_def, BitVec.lt_def, sum]
  omega

theorem Wraps.slice_eq_none (measured : fragDesc.Measured) (wraps : fragDesc.Wraps off len) :
    slice (bytes memory fragDesc.frags) off.toNat len.toNat = none := by
  have word := fragDesc.len.isLt
  obtain ⟨-, -, beyond⟩ := wraps
  rw [slice, if_neg]
  rw [length_bytes, ← measured]
  omega

/-! ### The walks -/

structure Leaves (memory : Memory) (kept : List UInt8)
    (outcome : Option (Nat × Nat) × FragDescriptor) : Prop where
  measured : outcome.2.Measured
  fails : outcome.1 = none ↔ kept = []
  bytes_eq : outcome.1 ≠ none → bytes memory outcome.2.frags = kept

theorem dataPtr_eq_none_iff : fragDesc.dataPtr = none ↔ fragDesc.frags = [] := by
  rw [dataPtr, Option.map_eq_none_iff, List.head?_eq_none_iff]

theorem dataPtr_ne_none (some : bytes memory fragDesc.frags ≠ []) : fragDesc.dataPtr ≠ none := by
  intro none
  rw [dataPtr_eq_none_iff.mp none] at some
  exact some rfl

theorem leaves_of_ne_nil {kept : List UInt8} (measured : fragDesc.Measured)
    (same : bytes memory fragDesc.frags = kept) (some : kept ≠ []) :
    Leaves memory kept (fragDesc.dataPtr, fragDesc) where
  measured := measured
  fails := by
    rw [← same] at some ⊢
    exact iff_of_false (dataPtr_ne_none some) some
  bytes_eq _ := same

theorem pull_leaves (measured : fragDesc.Measured) :
    Leaves memory ((bytes memory fragDesc.frags).drop size.toNat) (fragDesc.pull size) := by
  rw [pull]
  split_ifs with short
  · have none : (bytes memory fragDesc.frags).drop size.toNat = [] := by
      apply List.drop_eq_nil_of_le
      rw [length_bytes, ← measured]
      exact short
    rw [none]
    exact ⟨measured_recycle fragDesc, iff_of_true rfl rfl, fun other => absurd rfl other⟩
  · have fits : size.toNat < fragDesc.len.toNat := Nat.not_le.mp short
    obtain ⟨measured', kept⟩ := @pullLoop_spec memory fragDesc.len size fragDesc.frags measured
      (by rw [← measured]; omega)
    refine leaves_of_ne_nil measured' kept fun none => ?_
    have length := congrArg List.length none
    rw [List.length_drop, length_bytes, ← measured, List.length_nil] at length
    omega

def Hollow (fragDesc : FragDescriptor) : Prop :=
  total fragDesc.frags = 0 ∧ fragDesc.frags ≠ []

theorem trim_leaves_iff (measured : fragDesc.Measured) :
    Leaves memory ((bytes memory fragDesc.frags).take size.toNat) (fragDesc.trim size) ↔
      ¬(size ≠ 0 ∧ fragDesc.Hollow) := by
  rw [trim]
  split_ifs with none grown
  · refine iff_of_true ?_ fun hollow => hollow.1 none
    rw [none]
    exact ⟨measured_recycle fragDesc, iff_of_true rfl rfl, fun other => absurd rfl other⟩
  · have whole : (bytes memory fragDesc.frags).take size.toNat = bytes memory fragDesc.frags := by
      apply List.take_of_length_le
      rw [length_bytes, ← measured]
      exact grown
    rw [whole]
    by_cases empty : bytes memory fragDesc.frags = []
    · have sum : total fragDesc.frags = 0 := by
        rw [← length_bytes memory, empty, List.length_nil]
      rw [empty]
      constructor
      · intro leaves hollow
        exact hollow.2.2 (dataPtr_eq_none_iff.mp (leaves.fails.mpr rfl))
      · intro solid
        have bare : fragDesc.frags = [] := by
          by_contra some
          exact solid ⟨none, sum, some⟩
        exact ⟨measured, iff_of_true (dataPtr_eq_none_iff.mpr bare) rfl, fun _ => empty⟩
    · refine iff_of_true (leaves_of_ne_nil measured rfl empty) fun hollow => empty ?_
      rw [← List.length_eq_zero_iff, length_bytes]
      exact hollow.2.1
  · have fits : size.toNat < fragDesc.len.toNat := Nat.not_le.mp grown
    have some : size.toNat ≠ 0 := fun zero => none (BitVec.eq_of_toNat_eq zero)
    have eat : (fragDesc.len - size).toNat = fragDesc.len.toNat - size.toNat :=
      BitVec.toNat_sub_of_le (BitVec.le_of_lt (BitVec.not_le.mp grown))
    obtain ⟨measured', kept⟩ := @trimLoop_spec memory fragDesc.len (fragDesc.len - size)
      fragDesc.frags.reverse (by rw [List.reverse_reverse]; exact measured)
      (by rw [List.reverse_reverse, eat, ← measured]; omega)
    have rest : total fragDesc.frags - (fragDesc.len - size).toNat = size.toNat := by
      rw [eat, ← measured]
      omega
    rw [List.reverse_reverse, rest] at kept
    refine iff_of_true (leaves_of_ne_nil measured' kept fun empty => ?_) fun hollow => ?_
    · have length := congrArg List.length empty
      rw [List.length_take, length_bytes, ← measured, List.length_nil] at length
      omega
    · have zero : fragDesc.len.toNat = 0 := measured.trans hollow.2.1
      omega

theorem copyData_eq_slice (measured : fragDesc.Measured) (plain : ¬fragDesc.Wraps off len) :
    copyData memory fragDesc off len = slice (bytes memory fragDesc.frags) off.toNat len.toNat := by
  have refuses := refuses_iff plain
  rw [copyData, slice, length_bytes, ← measured, copyLoop_eq]
  by_cases outside : fragDesc.Refuses off len
  · rw [if_pos outside, if_neg (refuses.mp outside)]
  · rw [if_neg outside, if_pos (not_not.mp fun other => outside (refuses.mpr other))]

theorem headerPtr_eq_slice (measured : fragDesc.Measured) (plain : ¬fragDesc.Wraps off len) :
    (headerPtr memory fragDesc off len).map (HeaderPtr.read memory len.toNat) =
      slice (bytes memory fragDesc.frags) off.toNat len.toNat := by
  have refuses := refuses_iff plain
  have copied := @copyData_eq_slice memory fragDesc off len measured plain
  rw [headerPtr]
  split_ifs with outside
  · rw [← copied, copyData, if_pos outside]
    rfl
  · have fits := not_not.mp fun other => outside (refuses.mpr other)
    split
    · rename_i start found
      rw [slice, length_bytes, ← measured, if_pos fits, Option.map_some, headerLoop_some found]
      exact Nat.lt_of_le_of_lt fits fragDesc.len.isLt
    · rw [copied, Option.map_map]
      cases slice (bytes memory fragDesc.frags) off.toNat len.toNat with
      | none => rfl
      | some copy => rfl

/-- The range is added behind what there is, and `-EINVAL` or `-ENOMEM` stands for no range. -/
structure Adds (memory : Memory) (alloc : Nat → Bool) (into source : FragDescriptor)
    (off len : BitVec 32) : Prop where
  measured : (addFragsFrom alloc into source off len).2.Measured
  added : (if (addFragsFrom alloc into source off len).1 = none then
      some (bytes memory (addFragsFrom alloc into source off len).2.frags) else none) =
    (slice (bytes memory source.frags) off.toNat len.toNat).map (bytes memory into.frags ++ ·)

/-- The sum still is a word, and there is memory for each fragment that has a byte in the range. -/
def Room (alloc : Nat → Bool) (into source : FragDescriptor) (off len : BitVec 32) : Prop :=
  into.len.toNat + len.toNat < 2 ^ 32 ∧
    ∀ i < touched off.toNat (off.toNat + len.toNat) 0 source.frags, alloc i = true

theorem adds_iff (measured : fragDesc.Measured) (measured' : into.Measured)
    (plain : ¬fragDesc.Wraps off len) :
    Adds memory alloc into fragDesc off len ↔
      (off.toNat + len.toNat ≤ fragDesc.len.toNat → Room alloc into fragDesc off len) := by
  have refuses := refuses_iff plain
  by_cases outside : fragDesc.Refuses off len
  · have beyond := refuses.mp outside
    refine iff_of_true ⟨?_, ?_⟩ fun inside => absurd inside beyond
    · rw [addFragsFrom, if_pos outside]
      exact measured'
    · rw [addFragsFrom, if_pos outside, slice, length_bytes, ← measured, if_neg beyond]
      rfl
  · have inside := not_not.mp fun other => outside (refuses.mpr other)
    have call : addFragsFrom alloc into fragDesc off len =
        addFragsLoop alloc into fragDesc.frags off len 0 := if_neg outside
    have fits : slice (bytes memory fragDesc.frags) off.toNat len.toNat =
        some (((bytes memory fragDesc.frags).drop off.toNat).take len.toNat) := by
      rw [slice, length_bytes, ← measured, if_pos inside]
    obtain ⟨succeeds, adds⟩ := @addFragsLoop_spec memory alloc into off len fragDesc.frags 0
      off.toNat (off.toNat + len.toNat) 0 rfl (by omega)
    have counted : min len.toNat (total fragDesc.frags - off.toNat) = len.toNat := by
      rw [← measured]
      omega
    rw [counted] at adds
    simp only [Nat.zero_add] at succeeds
    rw [← call] at succeeds adds
    constructor
    · rintro ⟨measured'', added⟩ -
      have success : (addFragsFrom alloc into fragDesc off len).1 = none := by
        by_contra failed
        rw [if_neg failed, fits] at added
        cases added
      obtain ⟨stream, sum⟩ := adds success
      refine ⟨?_, succeeds.mp success⟩
      have length := congrArg List.length stream
      rw [length_bytes, List.length_append, length_bytes, List.length_take, List.length_drop,
        length_bytes, counted, ← measured'', sum, measured'] at length
      have word := Nat.mod_lt (into.len.toNat + len.toNat) (Nat.two_pow_pos 32)
      rw [measured'] at word ⊢
      rwa [length] at word
    · intro room
      obtain ⟨word, allocated⟩ := room inside
      have success := succeeds.mpr allocated
      obtain ⟨stream, sum⟩ := adds success
      constructor
      · have length := congrArg List.length stream
        rw [length_bytes, List.length_append, length_bytes, List.length_take, List.length_drop,
          length_bytes, counted] at length
        rw [Measured, sum, length, Nat.mod_eq_of_lt word, measured']
      · rw [if_pos success, fits, stream]
        rfl

/-- The calls do on the bytes of a descriptor what `drop`, `take` and `slice` do. -/
structure Faithful (memory : Memory) (alloc : Nat → Bool) (fragDesc into : FragDescriptor)
    (size off len : BitVec 32) : Prop where
  pull : Leaves memory ((bytes memory fragDesc.frags).drop size.toNat) (fragDesc.pull size)
  trim : Leaves memory ((bytes memory fragDesc.frags).take size.toNat) (fragDesc.trim size)
  copy : copyData memory fragDesc off len =
    slice (bytes memory fragDesc.frags) off.toNat len.toNat
  header : (headerPtr memory fragDesc off len).map (HeaderPtr.read memory len.toNat) =
    slice (bytes memory fragDesc.frags) off.toNat len.toNat
  add : Adds memory alloc into fragDesc off len

theorem Faithful.not_wraps (measured : fragDesc.Measured)
    (faithful : Faithful memory alloc fragDesc into size off len) : ¬fragDesc.Wraps off len := by
  intro wraps
  have copy := faithful.copy
  rw [copyData, if_neg wraps.not_refuses, wraps.slice_eq_none measured] at copy
  cases copy

/-- Exactly which calls do not: trimming fragments without a byte, a range whose end is beyond a
word, and adding beyond a word or without memory. -/
theorem faithful_iff (memory : Memory) (alloc : Nat → Bool) (fragDesc into : FragDescriptor)
    (size off len : BitVec 32) (measured : fragDesc.Measured) (measured' : into.Measured) :
    Faithful memory alloc fragDesc into size off len ↔
      ¬(size ≠ 0 ∧ fragDesc.Hollow) ∧ ¬fragDesc.Wraps off len ∧
        (off.toNat + len.toNat ≤ fragDesc.len.toNat → Room alloc into fragDesc off len) := by
  constructor
  · intro faithful
    have plain := faithful.not_wraps measured
    exact ⟨(trim_leaves_iff measured).mp faithful.trim, plain,
      (adds_iff measured measured' plain).mp faithful.add⟩
  · rintro ⟨solid, plain, room⟩
    exact {
      pull := pull_leaves measured
      trim := (trim_leaves_iff measured).mpr solid
      copy := copyData_eq_slice measured plain
      header := headerPtr_eq_slice measured plain
      add := (adds_iff measured measured' plain).mpr room }

section Sample

def shortDescriptor : FragDescriptor where
  frags := [⟨0, 0, 2, by decide⟩, ⟨1, 0, 2, by decide⟩]
  len := 4

def longDescriptor : FragDescriptor where
  frags := [⟨0, 0, 0x80000000, by decide⟩, ⟨1, 0, 16, by decide⟩]
  len := 0x80000010

theorem shortDescriptor_faithful :
    shortDescriptor.Measured ∧
      Faithful (fun page off => UInt8.ofNat (page + off)) (fun _ => true) shortDescriptor
        shortDescriptor 3 1 2 := by
  have measured : shortDescriptor.Measured := rfl
  refine ⟨measured, (faithful_iff _ _ _ _ _ _ _ measured measured).mpr ⟨?_, ?_, ?_⟩⟩
  · rintro ⟨-, none, -⟩
    exact absurd none (by decide)
  · rintro ⟨-, -, beyond⟩
    exact absurd beyond (by decide)
  · exact fun _ => ⟨by decide, fun _ _ => rfl⟩

/-- A range that begins behind the last byte and is 2 GiB long is not refused. -/
theorem longDescriptor_not_faithful :
    longDescriptor.Measured ∧
      ¬Faithful (fun _ _ => 0) (fun _ => true) longDescriptor shortDescriptor 1 0x80000010
        0x80000000 := by
  have measured : longDescriptor.Measured := rfl
  refine ⟨measured, fun faithful => faithful.not_wraps measured ?_⟩
  exact ⟨by decide, by decide, by decide⟩

end Sample

end FragDescriptor

end VendorModules.Rmnet
