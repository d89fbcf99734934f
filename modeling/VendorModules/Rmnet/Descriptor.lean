import Mathlib.Data.List.Perm.Basic
import VendorModules.Lib.Scatter

namespace VendorModules.Rmnet

open Lib

abbrev Memory := Nat → Nat → UInt8

/-- `skb_frag_t`, and `struct rmnet_fragment` -/
abbrev SkbFrag := Piece

/-- The flags of `data_format` that reception looks at. -/
structure DataFormat where
  mapCksumv4 : Bool
  mapCksumv5 : Bool
  coalesce : Bool
  deriving DecidableEq, Repr

/-- `struct rmnet_map_header` -/
structure MapHeader where
  padLen : Nat
  nextHdr : Bool
  cdBit : Bool
  muxId : Nat
  pktLen : Nat
  deriving DecidableEq, Repr

def sizeofMapHeader : Nat := 4

def sizeofCoalHeader : Nat := 28

def sizeofCsumHeader : Nat := 4

def sizeofCsumTrailer : Nat := 8

def ntohs (high low : UInt8) : Nat := high.toNat * 256 + low.toNat

def MapHeader.ofBytes (b₀ b₁ b₂ b₃ : UInt8) : MapHeader where
  padLen := b₀.toNat % 64
  nextHdr := b₀.toNat.testBit 6
  cdBit := b₀.toNat.testBit 7
  muxId := b₁.toNat
  pktLen := ntohs b₂ b₃

def nextHdrSize (type : UInt8) : Nat :=
  match type.toNat / 2 with
  | 1 => sizeofCoalHeader
  | 2 => sizeofCsumHeader
  | _ => 0

structure Pool where
  freeList : List Nat
  poolSize : Nat
  deriving DecidableEq, Repr

namespace Pool

/-- `rmnet_get_frag_descriptor` -/
def get (pool : Pool) (allocated : Bool) : Option (Nat × Pool) :=
  match pool.freeList with
  | desc :: rest => some (desc, { pool with freeList := rest })
  | [] => if allocated then some (pool.poolSize, { pool with poolSize := pool.poolSize + 1 })
      else none

/-- The pool's part of `rmnet_recycle_frag_descriptor`. -/
def recycle (pool : Pool) (desc : Nat) : Pool :=
  { pool with freeList := pool.freeList ++ [desc] }

/-- Of the descriptors that were free and those that were made since, some are used and the
others are free. -/
structure Conserves (pool pool' : Pool) (used : List Nat) : Prop where
  grown : pool.poolSize ≤ pool'.poolSize
  perm : (pool'.freeList ++ used).Perm
    (pool.freeList ++ List.range' pool.poolSize (pool'.poolSize - pool.poolSize))

namespace Conserves

variable {pool pool' pool'' : Pool} {used used' : List Nat}

theorem refl (pool : Pool) : Conserves pool pool [] where
  grown := Nat.le_refl _
  perm := by simp

theorem of_get {allocated : Bool} {desc : Nat}
    (got : pool.get allocated = some (desc, pool')) : Conserves pool pool' [desc] := by
  unfold get at got
  split at got
  · rename_i desc' rest free
    cases got
    refine ⟨Nat.le_refl _, ?_⟩
    rw [free]
    simp
  · rename_i free
    split_ifs at got
    cases got
    refine ⟨Nat.le_succ _, ?_⟩
    simp [free]

theorem trans (first : Conserves pool pool' used) (second : Conserves pool' pool'' used') :
    Conserves pool pool'' (used ++ used') where
  grown := first.grown.trans second.grown
  perm := by
    have made : List.range' pool.poolSize (pool''.poolSize - pool.poolSize) =
        List.range' pool.poolSize (pool'.poolSize - pool.poolSize) ++
          List.range' pool'.poolSize (pool''.poolSize - pool'.poolSize) := by
      have grown := first.grown
      have grown' := second.grown
      rw [show pool''.poolSize - pool.poolSize =
        (pool'.poolSize - pool.poolSize) + (pool''.poolSize - pool'.poolSize) by omega,
        ← List.range'_append_1]
      congr 2
      omega
    rw [made]
    calc (pool''.freeList ++ (used ++ used')).Perm (used ++ (pool''.freeList ++ used')) := by
          rw [← List.append_assoc, ← List.append_assoc]
          exact List.perm_append_comm.append_right used'
      _ |>.Perm (used ++ (pool'.freeList ++
            List.range' pool'.poolSize (pool''.poolSize - pool'.poolSize))) :=
          second.perm.append_left used
      _ |>.Perm ((pool'.freeList ++ used) ++
            List.range' pool'.poolSize (pool''.poolSize - pool'.poolSize)) := by
          rw [← List.append_assoc]
          exact List.perm_append_comm.append_right _
      _ |>.Perm _ := by
          rw [← List.append_assoc]
          exact first.perm.append_right _

theorem recycle {desc : Nat} (conserves : Conserves pool pool' (desc :: used)) :
    Conserves pool (pool'.recycle desc) used where
  grown := conserves.grown
  perm := by
    simpa [Pool.recycle] using conserves.perm

theorem length (conserves : Conserves pool pool' used) :
    pool'.freeList.length + used.length =
      pool.freeList.length + (pool'.poolSize - pool.poolSize) := by
  simpa using conserves.perm.length_eq

end Conserves

end Pool

end VendorModules.Rmnet
