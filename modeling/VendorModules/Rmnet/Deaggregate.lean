import VendorModules.Rmnet.Descriptor

namespace VendorModules.Rmnet

open Lib

structure FrameDesc where
  id : Nat
  frags : List SkbFrag
  len : Nat
  priority : Nat
  deriving DecidableEq, Repr

/-- Whether the allocations for one frame succeed: that of a descriptor, when none is free,
and those of its fragments. -/
structure FrameAlloc where
  descriptor : Bool
  frag : Nat → Bool

structure Deaggregation where
  pool : Pool
  list : List FrameDesc
  deriving DecidableEq, Repr

section

variable (memory : Memory)

def skbCopyBits (frags : List SkbFrag) (start len : Nat) : Option (List UInt8) :=
  if start + len ≤ totalSize frags then some (((gather memory frags).drop start).take len)
  else none

def startFrag (start : Nat) : List SkbFrag → Nat → Option (SkbFrag × List SkbFrag)
  | [], _ => none
  | frag :: rest, offset =>
    if start < frag.size + offset then some (frag.skip (start - offset), rest)
    else startFrag start rest (offset + frag.size)

def mapHeader (frags : List SkbFrag) (first : SkbFrag) (start : Nat) : Option MapHeader :=
  let bytes := if first.size ≥ sizeofMapHeader then
      some ((first.read memory).take sizeofMapHeader)
    else skbCopyBits memory frags start sizeofMapHeader
  match bytes with
  | some [b₀, b₁, b₂, b₃] => some (.ofBytes b₀ b₁ b₂ b₃)
  | _ => none

def typeByte (frags : List SkbFrag) (first : SkbFrag) (start : Nat) : Option UInt8 :=
  if first.size ≥ sizeofMapHeader + 1 then (first.read memory)[sizeofMapHeader]?
  else (skbCopyBits memory frags (start + sizeofMapHeader) 1).bind List.head?

def hasNextHdr (format : DataFormat) (maph : MapHeader) : Bool :=
  (format.mapCksumv5 || format.coalesce) && !maph.cdBit

def packetLen (format : DataFormat) (maph : MapHeader) (type : Option UInt8) : Option Nat :=
  if format.mapCksumv4 then some (maph.pktLen + sizeofMapHeader + sizeofCsumTrailer)
  else if hasNextHdr format maph then
    type.map fun type => maph.pktLen + sizeofMapHeader + nextHdrSize type
  else some (maph.pktLen + sizeofMapHeader)

/-- The loop that adds fragments to a descriptor, none when one is not allocated: the
fragments added, and the bytes that are still missing. -/
def addFrags (alloc : Nat → Bool) : List SkbFrag → Nat → Nat → Option (List SkbFrag × Nat)
  | [], pktLen, _ => some ([], pktLen)
  | frag :: rest, pktLen, i =>
    if pktLen = 0 then some ([], 0)
    else if !alloc i then none
    else
      let copy := min frag.size pktLen
      (addFrags alloc rest (pktLen - copy) (i + 1)).map fun added =>
        (frag.cut copy :: added.1, added.2)

/-- `rmnet_frag_deaggregate_one`: the length of the frame, none for -1. -/
def deaggregateOne (format : DataFormat) (frags : List SkbFrag) (priority : Nat)
    (alloc : FrameAlloc) (deagg : Deaggregation) (start : Nat) : Deaggregation × Option Nat :=
  match startFrag start frags 0 with
  | none => (deagg, none)
  | some (first, rest) =>
    match mapHeader memory frags first start with
    | none => (deagg, none)
    | some maph =>
      if maph.pktLen = 0 then (deagg, none)
      else
        match deagg.pool.get alloc.descriptor with
        | none => (deagg, none)
        | some (desc, pool) =>
          match packetLen format maph (typeByte memory frags first start) with
          -- returns with the descriptor in hand
          | none => ({ deagg with pool := pool }, none)
          | some pktLen =>
            match addFrags alloc.frag (first :: rest) pktLen 0 with
            | none => ({ deagg with pool := pool.recycle desc }, none)
            | some (added, missing) =>
              if missing ≠ 0 then ({ deagg with pool := pool.recycle desc }, none)
              else
                ({ pool := pool
                   list := deagg.list ++
                     [{ id := desc, frags := added, len := totalSize added,
                        priority := priority }] },
                  some (totalSize added))

/-- `rmnet_frag_deaggregate`, none while it has not returned after so many frames. -/
def deaggregate (format : DataFormat) (frags : List SkbFrag) (priority : Nat)
    (alloc : Nat → FrameAlloc) : Nat → Deaggregation → Nat → Nat → Option Deaggregation
  | 0, _, _, _ => none
  | frames + 1, deagg, start, frame =>
    if start < totalSize frags then
      match deaggregateOne memory format frags priority (alloc frame) deagg start with
      | (deagg, none) => some deagg
      | (deagg, some len) =>
        deaggregate format frags priority alloc frames deagg (start + len) (frame + 1)
    else some deagg

end

end VendorModules.Rmnet
