import Mathlib.Data.List.TakeWhile

namespace VendorModules.Qdf

/-! A string is the list of its characters before the terminator. -/

/-- `isspace` of the kernel. -/
def isSpace (c : Char) : Bool := c.toNat ∈ [9, 10, 11, 12, 13, 32, 160]

/-- `qdf_str_left_trim` -/
def leftTrim (str : List Char) : List Char := str.dropWhile isSpace

/-- `qdf_consume_char` -/
def consumeChar (c : Char) : List Char → Option (List Char)
  | head :: str => if head = c then some str else none
  | [] => none

def hexNibble (c : Char) : Option Nat :=
  if '0'.toNat ≤ c.toNat ∧ c.toNat ≤ '9'.toNat then some (c.toNat - '0'.toNat)
  else if 'a'.toNat ≤ c.toNat ∧ c.toNat ≤ 'f'.toNat then some (c.toNat - 'a'.toNat + 10)
  else if 'A'.toNat ≤ c.toNat ∧ c.toNat ≤ 'F'.toNat then some (c.toNat - 'A'.toNat + 10)
  else none

/-- `qdf_consume_hex` -/
def consumeHex : List Char → Option (Nat × List Char)
  | c :: str => (hexNibble c).map (·, str)
  | [] => none

abbrev White (str : List Char) : Prop := ∀ c ∈ str, isSpace c

def Padded (str text : List Char) : Prop :=
  ∃ before after, White before ∧ White after ∧ str = before ++ (text ++ after)

def NoHex (str : List Char) : Prop := ∀ c ∈ str.head?, hexNibble c = none

theorem hexNibble_space {c : Char} (space : isSpace c) : hexNibble c = none := by
  simp only [isSpace, List.mem_cons, List.not_mem_nil, or_false, decide_eq_true_eq] at space
  simp only [hexNibble, Char.reduceToNat]
  rw [if_neg (by omega), if_neg (by omega), if_neg (by omega)]

theorem White.noHex {str : List Char} (white : White str) : NoHex str :=
  fun c head => hexNibble_space (white c (List.mem_of_mem_head? head))

theorem White.head_ne {str : List Char} (white : White str) {c : Char} (black : ¬ isSpace c)
    (tail : List Char) : str ≠ c :: tail := by
  rintro rfl
  exact black (white c List.mem_cons_self)

theorem leftTrim_eq_nil {str : List Char} : leftTrim str = [] ↔ White str :=
  List.dropWhile_eq_nil_iff

theorem leftTrim_append {before rest : List Char} (white : White before)
    (black : ∀ c ∈ rest.head?, ¬ isSpace c) : leftTrim (before ++ rest) = rest := by
  rw [leftTrim, List.dropWhile_append_of_pos white]
  cases rest with
  | nil => rfl
  | cons c tail => exact List.dropWhile_cons_of_neg (black c rfl)

theorem leftTrim_split (str : List Char) : ∃ before, White before ∧ str = before ++ leftTrim str :=
  ⟨str.takeWhile isSpace, fun _ member => List.mem_takeWhile_imp member,
    List.takeWhile_append_dropWhile.symm⟩

theorem consumeChar_eq_some {c : Char} {str rest : List Char} :
    consumeChar c str = some rest ↔ str = c :: rest := by
  cases str with
  | nil => simp [consumeChar]
  | cons head tail => simp [consumeChar]

theorem consumeChar_eq_none {c : Char} {str : List Char} :
    consumeChar c str = none ↔ ∀ rest, str ≠ c :: rest := by
  cases str with
  | nil => simp [consumeChar]
  | cons head tail => simp [consumeChar]

end VendorModules.Qdf
