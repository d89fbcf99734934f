import Mathlib.Data.List.Basic
import Mathlib.Tactic.SplitIfs

namespace VendorModules.Lib

/-! Units of an identifier byte, a length byte and that many bytes of body, and the
sequences that carry one long body in several of them. -/

def encodeUnit (id : UInt8) (body : List UInt8) : List UInt8 :=
  id :: UInt8.ofNat body.length :: body

def encodeUnits (id : UInt8) (bodies : List (List UInt8)) : List UInt8 :=
  bodies.flatMap (encodeUnit id)

/-- The bytes are whole units one after the other. -/
inductive ValidUnits : List UInt8 → Prop
  | nil : ValidUnits []
  | cons (id : UInt8) (body : List UInt8) (fits : body.length ≤ 255)
      {rest : List UInt8} (valid : ValidUnits rest) :
      ValidUnits (encodeUnit id body ++ rest)

/-- No body is empty, none but the last is shorter than a unit can carry, and none is
longer. -/
inductive WellSized : List (List UInt8) → Prop
  | last (body : List UInt8) (nonempty : 0 < body.length) (fits : body.length ≤ 255) :
      WellSized [body]
  | cons (body : List UInt8) (full : body.length = 255) {next : List UInt8}
      {rest : List (List UInt8)} (sized : WellSized (next :: rest)) :
      WellSized (body :: next :: rest)

@[simp] theorem length_encodeUnit (id : UInt8) (body : List UInt8) :
    (encodeUnit id body).length = body.length + 2 := rfl

@[simp] theorem encodeUnits_nil (id : UInt8) : encodeUnits id [] = [] := rfl

@[simp] theorem encodeUnits_cons (id : UInt8) (body : List UInt8)
    (rest : List (List UInt8)) :
    encodeUnits id (body :: rest) = encodeUnit id body ++ encodeUnits id rest := rfl

theorem toNat_ofNat_length {body : List UInt8} (fits : body.length ≤ 255) :
    (UInt8.ofNat body.length).toNat = body.length := by
  simp [UInt8.toNat_ofNat', Nat.mod_eq_of_lt (show body.length < 256 by omega)]

namespace WellSized

variable {body : List UInt8} {rest : List (List UInt8)}

theorem head_pos (sized : WellSized (body :: rest)) : 0 < body.length := by
  cases sized with
  | last _ nonempty _ => exact nonempty
  | cons _ full _ => omega

theorem head_fits (sized : WellSized (body :: rest)) : body.length ≤ 255 := by
  cases sized with
  | last _ _ fits => exact fits
  | cons _ full _ => omega

theorem head_full (sized : WellSized (body :: rest)) (more : rest ≠ []) :
    body.length = 255 := by
  cases sized with
  | last _ _ _ => exact absurd rfl more
  | cons _ full _ => exact full

theorem tail (sized : WellSized (body :: rest)) (more : rest ≠ []) : WellSized rest := by
  cases sized with
  | last _ _ _ => exact absurd rfl more
  | cons _ _ sized => exact sized

theorem fits {bodies : List (List UInt8)} (sized : WellSized bodies) :
    ∀ body ∈ bodies, body.length ≤ 255 := by
  induction sized with
  | last body _ fits => simpa using fits
  | cons body full _ ih =>
    intro other member
    rcases List.mem_cons.1 member with rfl | member
    · omega
    · exact ih other member

end WellSized

def StartsWhole (rest : List UInt8) : Prop :=
  rest = [] ∨ ∃ id body after, body.length ≤ 255 ∧ rest = encodeUnit id body ++ after

theorem ValidUnits.head {rest : List UInt8} (valid : ValidUnits rest) : StartsWhole rest := by
  cases valid with
  | nil => exact .inl rfl
  | cons id body fits valid => exact .inr ⟨id, body, _, fits, rfl⟩

/-! ### The run of units at the start of a buffer -/

def splitUnit : List UInt8 → Option (UInt8 × List UInt8 × List UInt8)
  | id :: len :: rest =>
    if len.toNat ≤ rest.length then some (id, rest.take len.toNat, rest.drop len.toNat)
    else none
  | _ => none

variable {bytes body rest : List UInt8} {id fragId : UInt8}

theorem splitUnit_encodeUnit (fits : body.length ≤ 255) :
    splitUnit (encodeUnit id body ++ rest) = some (id, body, rest) := by
  have len := toNat_ofNat_length fits
  rw [encodeUnit, List.cons_append, List.cons_append, splitUnit, len, List.length_append,
    if_pos (Nat.le_add_right _ _), List.take_left, List.drop_left]

theorem splitUnit_eq_some (split : splitUnit bytes = some (id, body, rest)) :
    body.length ≤ 255 ∧ bytes = encodeUnit id body ++ rest := by
  match bytes with
  | id' :: len :: behind =>
    rw [splitUnit] at split
    split_ifs at split with there
    cases split
    have small := len.toNat_lt
    have length : (behind.take len.toNat).length = len.toNat := by
      rw [List.length_take, Nat.min_eq_left there]
    refine ⟨by omega, ?_⟩
    rw [encodeUnit, length, UInt8.ofNat_toNat, List.cons_append, List.cons_append,
      List.take_append_drop]
  | [_] => cases split
  | [] => cases split

theorem splitUnit_length (split : splitUnit bytes = some (id, body, rest)) :
    rest.length < bytes.length := by
  rw [(splitUnit_eq_some split).2, List.length_append, length_encodeUnit]
  omega

def unitRun (fragId : UInt8) (bytes : List UInt8) : List (List UInt8) × List UInt8 :=
  match _found : splitUnit bytes with
  | some (id, body, rest) =>
    if id = fragId then (body :: (unitRun fragId rest).1, (unitRun fragId rest).2)
    else ([], bytes)
  | none => ([], bytes)
termination_by bytes.length
decreasing_by exact splitUnit_length _found

theorem unitRun_cons (fits : body.length ≤ 255) :
    unitRun fragId (encodeUnit fragId body ++ rest) =
      (body :: (unitRun fragId rest).1, (unitRun fragId rest).2) := by
  rw [unitRun]
  split
  · rename_i found
    rw [splitUnit_encodeUnit fits] at found
    cases found
    rw [if_pos rfl]
  · rename_i found
    rw [splitUnit_encodeUnit fits] at found
    cases found

theorem unitRun_of_head_ne (other : bytes.head? ≠ some fragId) :
    unitRun fragId bytes = ([], bytes) := by
  rw [unitRun]
  split
  · rename_i found
    rw [if_neg]
    rintro rfl
    rw [(splitUnit_eq_some found).2] at other
    exact other rfl
  · rfl

theorem unitRun_encodeUnits {bodies : List (List UInt8)} {tail : List UInt8}
    (fits : ∀ body ∈ bodies, body.length ≤ 255) (other : tail.head? ≠ some fragId) :
    unitRun fragId (encodeUnits fragId bodies ++ tail) = (bodies, tail) := by
  induction bodies with
  | nil => exact unitRun_of_head_ne other
  | cons body bodies ih =>
    rw [encodeUnits_cons, List.append_assoc, unitRun_cons (fits body (List.mem_cons_self ..)),
      ih fun body member => fits body (List.mem_cons_of_mem _ member)]

end VendorModules.Lib
