import Mathlib

namespace VendorModules.Lib

/-! Data that lies scattered over pages, in pieces. -/

structure Piece where
  page : Nat
  off : Nat
  size : Nat
  deriving DecidableEq, Repr

variable {α : Type*} (memory : Nat → Nat → α)

namespace Piece

def read (piece : Piece) : List α :=
  (List.range piece.size).map fun i => memory piece.page (piece.off + i)

/-- Without the first `n` cells. -/
def skip (piece : Piece) (n : Nat) : Piece :=
  { piece with off := piece.off + n, size := piece.size - n }

/-- The first `n` cells. -/
def cut (piece : Piece) (n : Nat) : Piece := { piece with size := n }

@[simp] theorem length_read (piece : Piece) : (piece.read memory).length = piece.size := by
  simp [read]

@[simp] theorem size_skip (piece : Piece) (n : Nat) : (piece.skip n).size = piece.size - n := rfl

@[simp] theorem size_cut (piece : Piece) (n : Nat) : (piece.cut n).size = n := rfl

theorem read_skip (piece : Piece) (n : Nat) :
    (piece.skip n).read memory = (piece.read memory).drop n := by
  apply List.ext_getElem
  · simp
  · intro i _ _
    simp [read, skip, Nat.add_assoc]

theorem read_cut (piece : Piece) {n : Nat} (fits : n ≤ piece.size) :
    (piece.cut n).read memory = (piece.read memory).take n := by
  apply List.ext_getElem
  · simp [fits]
  · intro i _ _
    simp [read, cut]

end Piece

/-- The data of some pieces, in order. -/
def gather (pieces : List Piece) : List α := pieces.flatMap (Piece.read memory)

def slice (data : List α) (off len : Nat) : Option (List α) :=
  if off + len ≤ data.length then some ((data.drop off).take len) else none

def totalSize (pieces : List Piece) : Nat := (pieces.map Piece.size).sum

@[simp] theorem gather_nil : gather memory [] = [] := rfl

@[simp] theorem gather_cons (piece : Piece) (pieces : List Piece) :
    gather memory (piece :: pieces) = piece.read memory ++ gather memory pieces := by
  simp [gather]

@[simp] theorem gather_append (front back : List Piece) :
    gather memory (front ++ back) = gather memory front ++ gather memory back := by
  simp [gather]

@[simp] theorem totalSize_nil : totalSize [] = 0 := rfl

@[simp] theorem totalSize_cons (piece : Piece) (pieces : List Piece) :
    totalSize (piece :: pieces) = piece.size + totalSize pieces := by
  simp [totalSize]

@[simp] theorem totalSize_append (front back : List Piece) :
    totalSize (front ++ back) = totalSize front + totalSize back := by
  simp [totalSize]

@[simp] theorem length_gather (pieces : List Piece) :
    (gather memory pieces).length = totalSize pieces := by
  induction pieces with
  | nil => rfl
  | cons piece pieces ih => simp [ih]

end VendorModules.Lib
