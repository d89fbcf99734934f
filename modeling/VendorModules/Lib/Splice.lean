import Mathlib.Data.List.Basic

namespace VendorModules.Lib

variable {α ε : Type*}

/-! Reads and writes of runs of cells, with a fault for whatever leaves the memory. -/

def readAt (fault : ε) (memory : List α) (pos count : Nat) : Except ε (List α) :=
  if pos + count ≤ memory.length then
    .ok ((memory.drop pos).take count)
  else
    .error fault

def writeAt (fault : ε) (memory cells : List α) (pos : Nat) : Except ε (List α) :=
  if pos + cells.length ≤ memory.length then
    .ok (memory.take pos ++ cells ++ memory.drop (pos + cells.length))
  else
    .error fault

def readCell (fault : ε) (memory : List α) (pos : Nat) : Except ε α :=
  match memory[pos]? with
  | some cell => .ok cell
  | none => .error fault

variable {fault : ε} {memory cells : List α} {pos count : Nat}

theorem readAt_append (before after : List α) (shape : memory = before ++ cells ++ after)
    (here : before.length = pos) (size : cells.length = count) :
    readAt fault memory pos count = .ok cells := by
  subst shape here size
  simp [readAt]

theorem writeAt_append (before old after : List α) (shape : memory = before ++ old ++ after)
    (here : before.length = pos) (size : old.length = cells.length) :
    writeAt fault memory cells pos = .ok (before ++ cells ++ after) := by
  subst shape here
  have rest : (before ++ old ++ after).drop (before.length + cells.length) = after := by
    rw [← size, ← List.length_append, List.drop_left]
  simp only [writeAt, rest]
  simp [size]

theorem readCell_append (before after : List α) {cell : α} (shape : memory = before ++ cell :: after)
    (here : before.length = pos) : readCell fault memory pos = .ok cell := by
  subst shape here
  simp [readCell]

theorem readAt_fault (outside : memory.length < pos + count) :
    readAt fault memory pos count = .error fault := by
  simp [readAt, Nat.not_le.2 outside]

end VendorModules.Lib
