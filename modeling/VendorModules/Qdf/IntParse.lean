import Mathlib
import VendorModules.Qdf.Text

namespace VendorModules.Qdf

/-! The integer parsers and the array parsers. -/

/-- `qdf_consume_radix` -/
def consumeRadix : List Char → Option (Nat × List Char)
  | '0' :: 'b' :: str => some (2, str)
  | '0' :: 'o' :: str => some (8, str)
  | '0' :: 'x' :: str => some (16, str)
  | c :: str => if '0'.toNat ≤ c.toNat ∧ c.toNat ≤ '9'.toNat then some (10, c :: str) else none
  | [] => none

def intDigits (radix : Nat) : Nat → List Char → Option (Nat × List Char)
  | value, [] => some (value, [])
  | value, c :: str =>
    match hexNibble c with
    | none => some (value, c :: str)
    | some digit =>
      if radix ≤ digit then none
      else
        let nextValue := (value * radix + digit) % 2 ^ 64
        if nextValue < value then none else intDigits radix nextValue str

def consumeSign (str : List Char) : Bool × List Char :=
  match consumeChar '-' str with
  | some str => (true, str)
  | none => (false, (consumeChar '+' str).getD str)

/-- `__qdf_int_parse_lazy` -/
def intParseLazy (str : List Char) : Option (Nat × Bool × List Char) := do
  let (negate, str) := consumeSign (leftTrim str)
  let (radix, str) ← consumeRadix str
  let (value, str) ← intDigits radix 0 str
  some (value, negate, str)

def intParse (str : List Char) : Option (Nat × Bool) := do
  let (value, negate, str) ← intParseLazy str
  if leftTrim str = [] then some (value, negate) else none

/-- `int64_t` of a `uint64_t`. -/
def toInt64 (value : Nat) : Int := Int.bmod value (2 ^ 64)

def signedValueOf (value : Nat) (negate : Bool) : Option Int :=
  if negate then
    let signedValue := toInt64 ((2 ^ 64 - value) % 2 ^ 64)
    if 0 < signedValue then none else some signedValue
  else
    let signedValue := toInt64 value
    if signedValue < 0 then none else some signedValue

def int64Parse (str : List Char) : Option Int :=
  (intParse str).bind fun (value, negate) => signedValueOf value negate

def int32Parse (str : List Char) : Option Int :=
  (int64Parse str).bind fun value => if value.bmod (2 ^ 32) ≠ value then none else some value

def uint64Parse (str : List Char) : Option Nat :=
  (intParse str).bind fun (value, negate) => if negate then none else some value

def narrow (bits value : Nat) : Option Nat := if value % 2 ^ bits ≠ value then none else some value

def uint8Parse (str : List Char) : Option Nat := (uint64Parse str).bind (narrow 8)

def uint16Parse (str : List Char) : Option Nat := (uint64Parse str).bind (narrow 16)

def uint32Parse (str : List Char) : Option Nat := (uint64Parse str).bind (narrow 32)

def arrayParse (store : Nat → Bool → Option Int) : Nat → List Char → Option (List Int)
  | 0, _ => none
  | room + 1, str =>
    match intParseLazy str with
    | none => none
    | some (value, negate, str) =>
      match store value negate with
      | none => none
      | some out =>
        match leftTrim str with
        | [] => some [out]
        | c :: str => if c = ',' then (arrayParse store room str).map (out :: ·) else none

def int32Store (value : Nat) (negate : Bool) : Option Int :=
  (signedValueOf value negate).map fun signedValue => signedValue.bmod (2 ^ 32)

def uintStore (bits value : Nat) (negate : Bool) : Option Int :=
  if value % 2 ^ bits ≠ value ∨ negate then none else some value

def int32ArrayParse : Nat → List Char → Option (List Int) := arrayParse int32Store

def uint32ArrayParse : Nat → List Char → Option (List Int) := arrayParse (uintStore 32)

def uint16ArrayParse : Nat → List Char → Option (List Int) := arrayParse (uintStore 16)

def uint8ArrayParse : Nat → List Char → Option (List Int) := arrayParse (uintStore 8)

/-! ## Numbers -/

inductive Sign
  | none
  | plus
  | minus
  deriving DecidableEq

def Sign.text : Sign → List Char
  | none => []
  | plus => ['+']
  | minus => ['-']

inductive Radix
  | dec
  | bin
  | oct
  | hex
  deriving DecidableEq

def Radix.text : Radix → List Char
  | dec => []
  | bin => ['0', 'b']
  | oct => ['0', 'o']
  | hex => ['0', 'x']

def Radix.base : Radix → Nat
  | dec => 10
  | bin => 2
  | oct => 8
  | hex => 16

structure Numeral where
  sign : Sign
  radix : Radix
  digits : List Char

def digitsValue (radix value : Nat) (digits : List Char) : Nat :=
  digits.foldl (fun value c => value * radix + (hexNibble c).getD 0) value

def Rises (radix : Nat) : Nat → List Char → Prop
  | _, [] => True
  | value, c :: digits =>
    let nextValue := value * radix + (hexNibble c).getD 0
    value % 2 ^ 64 ≤ nextValue % 2 ^ 64 ∧ Rises radix nextValue digits

instance : (radix value : Nat) → (digits : List Char) → Decidable (Rises radix value digits)
  | _, _, [] => isTrue trivial
  | radix, value, c :: digits =>
    have := instDecidableRises radix (value * radix + (hexNibble c).getD 0) digits
    inferInstanceAs (Decidable (_ ∧ _))

def AreDigits (radix : Nat) (digits : List Char) : Prop :=
  ∀ c ∈ digits, ∃ digit < radix, hexNibble c = some digit

namespace Numeral

def text (n : Numeral) : List Char := n.sign.text ++ (n.radix.text ++ n.digits)

def negate (n : Numeral) : Bool := n.sign = .minus

def magnitude (n : Numeral) : Nat := digitsValue n.radix.base 0 n.digits

def value (n : Numeral) : Int := if n.negate then -n.magnitude else n.magnitude

structure Readable (n : Numeral) : Prop where
  digits : AreDigits n.radix.base n.digits
  some : n.radix = .dec → n.digits ≠ []

def IsNumber (n : Numeral) : Prop := AreDigits n.radix.base n.digits ∧ n.digits ≠ []

theorem IsNumber.readable {n : Numeral} (number : n.IsNumber) : n.Readable :=
  ⟨number.1, fun _ => number.2⟩

end Numeral

inductive IntType
  | int32
  | int64
  | uint8
  | uint16
  | uint32
  | uint64

namespace IntType

def signed : IntType → Bool
  | int32 | int64 => true
  | _ => false

def Holds : IntType → Int → Prop
  | int32, v => -2 ^ 31 ≤ v ∧ v < 2 ^ 31
  | int64, v => -2 ^ 63 ≤ v ∧ v < 2 ^ 63
  | uint8, v => 0 ≤ v ∧ v < 2 ^ 8
  | uint16, v => 0 ≤ v ∧ v < 2 ^ 16
  | uint32, v => 0 ≤ v ∧ v < 2 ^ 32
  | uint64, v => 0 ≤ v ∧ v < 2 ^ 64

def parse : IntType → List Char → Option Int
  | int32, str => int32Parse str
  | int64, str => int64Parse str
  | uint8, str => (uint8Parse str).map Nat.cast
  | uint16, str => (uint16Parse str).map Nat.cast
  | uint32, str => (uint32Parse str).map Nat.cast
  | uint64, str => (uint64Parse str).map Nat.cast

end IntType

def NumberIn (ty : IntType) (str : List Char) (out : Int) : Prop :=
  ∃ n : Numeral, n.IsNumber ∧ Padded str n.text ∧ n.value = out ∧ ty.Holds out

instance (ty : IntType) (v : Int) : Decidable (ty.Holds v) := by
  cases ty <;> exact inferInstanceAs (Decidable (_ ∧ _))

/-- What a parser that checks the range of `checked` takes although it is no number of `ty`: a
prefix alone, a number whose wraps go unseen, or one in the range of `checked` only. -/
inductive Overread (ty checked : IntType) (str : List Char) : Prop
  | prefixAlone (n : Numeral) (readable : n.Readable) (text : Padded str n.text)
      (signed : n.negate → ty.signed) (empty : n.digits = [])
  | wrapped (n : Numeral) (readable : n.Readable) (text : Padded str n.text)
      (signed : n.negate → ty.signed) (beyond : 2 ^ 64 ≤ n.magnitude)
      (unseen : Rises n.radix.base 0 n.digits)
      (fits : checked.Holds
        (if n.negate then -(n.magnitude % 2 ^ 64 : Nat) else (n.magnitude % 2 ^ 64 : Nat)))
  | wide (n : Numeral) (readable : n.Readable) (text : Padded str n.text)
      (outside : ¬ ty.Holds n.value) (fits : checked.Holds n.value)

def Underread (ty : IntType) (str : List Char) : Prop :=
  ty.signed = false ∧ ∃ n : Numeral, n.IsNumber ∧ Padded str n.text ∧ n.negate ∧ n.magnitude = 0

/-! ## The front of a string -/

def isHex (c : Char) : Bool := (hexNibble c).isSome

def scan (str : List Char) : Option (Bool × Nat × List Char × List Char) :=
  let signed := consumeSign (leftTrim str)
  (consumeRadix signed.2).map fun (radix, str) =>
    (signed.1, radix, str.takeWhile isHex, str.dropWhile isHex)

theorem intDigits_iff {radix value : Nat} {str rest : List Char} {out : Nat} :
    intDigits radix (value % 2 ^ 64) str = some (out, rest) ↔
      AreDigits radix (str.takeWhile isHex) ∧ Rises radix value (str.takeWhile isHex) ∧
        out = digitsValue radix value (str.takeWhile isHex) % 2 ^ 64 ∧
        rest = str.dropWhile isHex := by
  induction str generalizing value with
  | nil => simp [intDigits, AreDigits, Rises, digitsValue, eq_comm]
  | cons c str ih =>
    cases nibble : hexNibble c with
    | none => simp [intDigits, nibble, isHex, AreDigits, Rises, digitsValue, eq_comm]
    | some digit =>
      have next : (value % 2 ^ 64 * radix + digit) % 2 ^ 64 = (value * radix + digit) % 2 ^ 64 := by
        rw [Nat.add_mod, Nat.mod_mul_mod, ← Nat.add_mod]
      simp only [intDigits, nibble, next, List.takeWhile_cons, List.dropWhile_cons,
        show isHex c = true by simp [isHex, nibble], if_true]
      by_cases small : digit < radix
      · rw [if_neg (by omega)]
        by_cases wraps : (value * radix + digit) % 2 ^ 64 < value % 2 ^ 64
        · rw [if_pos wraps]
          simp [-Nat.reducePow, Rises, nibble, Nat.not_le.2 wraps]
        · rw [if_neg wraps, ih]
          simp [-Nat.reducePow, AreDigits, Rises, digitsValue, nibble, small, Nat.not_lt.1 wraps]
      · rw [if_pos (by omega)]
        simp [AreDigits, nibble, small]

theorem intParseLazy_iff {str rest : List Char} {out : Nat} {negate : Bool} :
    intParseLazy str = some (out, negate, rest) ↔
      ∃ radix digits, scan str = some (negate, radix, digits, rest) ∧ AreDigits radix digits ∧
        Rises radix 0 digits ∧ out = digitsValue radix 0 digits % 2 ^ 64 := by
  simp only [intParseLazy, scan]
  cases consumeRadix (consumeSign (leftTrim str)).2 with
  | none => simp
  | some found =>
    obtain ⟨radix, str⟩ := found
    have digits := @intDigits_iff radix 0 str
    rw [Nat.zero_mod] at digits
    simp only [Option.bind_eq_bind, Option.bind_some, Option.bind_eq_some_iff, Prod.exists,
      digits, Option.some.injEq, Prod.mk.injEq, Option.map_some]
    constructor
    · rintro ⟨_, _, ⟨are, rises, rfl, rfl⟩, rfl, rfl, rfl⟩
      exact ⟨radix, _, ⟨rfl, rfl, rfl, rfl⟩, are, rises, rfl⟩
    · rintro ⟨_, _, ⟨rfl, rfl, rfl, rfl⟩, are, rises, rfl⟩
      exact ⟨_, _, ⟨are, rises, rfl, rfl⟩, rfl, rfl, rfl⟩

theorem isHex_of_digit {radix : Nat} {digits : List Char} (are : AreDigits radix digits) :
    ∀ c ∈ digits, isHex c := by
  intro c member
  obtain ⟨digit, _, nibble⟩ := are c member
  simp [isHex, nibble]

theorem consumeSign_split (str : List Char) :
    ∃ sign : Sign, (consumeSign str).1 = decide (sign = .minus) ∧
      str = sign.text ++ (consumeSign str).2 := by
  cases minus : consumeChar '-' str with
  | some rest =>
    exact ⟨.minus, by simp [consumeSign, minus], by
      simpa [consumeSign, minus, Sign.text] using consumeChar_eq_some.1 minus⟩
  | none =>
    cases plus : consumeChar '+' str with
    | some rest =>
      exact ⟨.plus, by simp [consumeSign, minus], by
        simpa [consumeSign, minus, plus, Sign.text] using consumeChar_eq_some.1 plus⟩
    | none => exact ⟨.none, by simp [consumeSign, minus], by
        simp [consumeSign, minus, plus, Sign.text]⟩

theorem consumeSign_text (sign : Sign) {c : Char} (hex : isHex c) (tail : List Char) :
    consumeSign (sign.text ++ c :: tail) = (decide (sign = .minus), c :: tail) := by
  have noSign : c ≠ '-' ∧ c ≠ '+' := by
    constructor <;> rintro rfl <;> exact absurd hex (by decide)
  cases sign <;> simp [consumeSign, consumeChar, Sign.text, noSign]

theorem consumeRadix_split {str rest : List Char} {base : Nat}
    (found : consumeRadix str = some (base, rest)) :
    ∃ radix : Radix, radix.base = base ∧ str = radix.text ++ rest ∧
      (radix = .dec → ∃ c tail, rest = c :: tail ∧ isHex c) := by
  unfold consumeRadix at found
  split at found
  · obtain ⟨rfl, rfl⟩ := Prod.mk.inj (Option.some.inj found)
    exact ⟨.bin, rfl, rfl, by simp⟩
  · obtain ⟨rfl, rfl⟩ := Prod.mk.inj (Option.some.inj found)
    exact ⟨.oct, rfl, rfl, by simp⟩
  · obtain ⟨rfl, rfl⟩ := Prod.mk.inj (Option.some.inj found)
    exact ⟨.hex, rfl, rfl, by simp⟩
  · next c tail _ _ _ =>
    split at found
    · next range =>
      obtain ⟨rfl, rfl⟩ := Prod.mk.inj (Option.some.inj found)
      exact ⟨.dec, rfl, rfl, fun _ => ⟨c, tail, rfl, by rw [isHex, hexNibble, if_pos range]; rfl⟩⟩
    · simp at found
  · simp at found

theorem consumeRadix_text {radix : Radix} {digits rest : List Char}
    (are : AreDigits radix.base digits) (someDigit : radix = .dec → digits ≠ [])
    (white : White rest) :
    consumeRadix (radix.text ++ (digits ++ rest)) = some (radix.base, digits ++ rest) := by
  cases radix with
  | bin | oct | hex => rfl
  | dec =>
    obtain ⟨c, digits, rfl⟩ := List.exists_cons_of_ne_nil (someDigit rfl)
    have next : ∀ d ∈ (digits ++ rest).head?, d ≠ 'b' ∧ d ≠ 'o' ∧ d ≠ 'x' := by
      intro d head
      have kind : (∃ digit < 10, hexNibble d = some digit) ∨ isSpace d := by
        rcases List.mem_append.1 (List.mem_of_mem_head? head) with member | member
        · exact .inl (are d (List.mem_cons_of_mem c member))
        · exact .inr (white d member)
      refine ⟨?_, ?_, ?_⟩ <;> rintro rfl <;> simp [hexNibble, isSpace] at kind
    obtain ⟨digit, small, nibble⟩ := are c List.mem_cons_self
    have range : '0'.toNat ≤ c.toNat ∧ c.toNat ≤ '9'.toNat := by
      simp only [hexNibble, Char.reduceToNat] at nibble ⊢
      change digit < 10 at small
      grind
    simp only [Radix.text, List.nil_append, List.cons_append]
    unfold consumeRadix
    split
    · next shape => exact absurd rfl (next 'b' (by simp [(List.cons.inj shape).2])).1
    · next shape => exact absurd rfl (next 'o' (by simp [(List.cons.inj shape).2])).2.1
    · next shape => exact absurd rfl (next 'x' (by simp [(List.cons.inj shape).2])).2.2
    · next shape =>
      obtain ⟨rfl, rfl⟩ := List.cons.inj shape
      rw [if_pos range]
      rfl
    · next shape => cases shape

theorem scan_sound {str digits rest : List Char} {negate : Bool} {base : Nat}
    (found : scan str = some (negate, base, digits, rest)) (are : AreDigits base digits) :
    ∃ n : Numeral, n.Readable ∧ n.negate = negate ∧ n.radix.base = base ∧ n.digits = digits ∧
      ∃ before, White before ∧ str = before ++ (n.text ++ rest) := by
  obtain ⟨sign, minus, signText⟩ := consumeSign_split (leftTrim str)
  obtain ⟨⟨base', behind⟩, radixFound, shape⟩ := Option.map_eq_some_iff.1 found
  obtain ⟨radix, rfl, radixText, dec⟩ := consumeRadix_split radixFound
  simp only [Prod.mk.injEq] at shape
  obtain ⟨rfl, rfl, rfl, rfl⟩ := shape
  obtain ⟨before, white, trimmed⟩ := leftTrim_split str
  refine ⟨⟨sign, radix, behind.takeWhile isHex⟩, ⟨are, fun decimal => ?_⟩, minus.symm, rfl, rfl,
    before, white, ?_⟩
  · obtain ⟨c, tail, rfl, hex⟩ := dec decimal
    simp [hex]
  · rw [Numeral.text, List.append_assoc, List.append_assoc, List.takeWhile_append_dropWhile,
      ← radixText, ← signText]
    exact trimmed

theorem scan_text {n : Numeral} (readable : n.Readable) {before rest : List Char}
    (whiteBefore : White before) (white : White rest) :
    scan (before ++ (n.text ++ rest)) = some (n.negate, n.radix.base, n.digits, rest) := by
  have hex := isHex_of_digit readable.digits
  obtain ⟨c, tail, front, hexFront⟩ :
      ∃ c tail, n.radix.text ++ (n.digits ++ rest) = c :: tail ∧ isHex c := by
    cases kind : n.radix with
    | bin | oct | hex => exact ⟨'0', _, rfl, by decide⟩
    | dec =>
      obtain ⟨c, digits, shape⟩ := List.exists_cons_of_ne_nil (readable.some kind)
      exact ⟨c, digits ++ rest, by simp [Radix.text, shape], hex c (by simp [shape])⟩
  have body : n.text ++ rest = n.sign.text ++ c :: tail := by
    rw [← front]
    simp [Numeral.text]
  have black : ∀ d ∈ (n.sign.text ++ c :: tail).head?, ¬ isSpace d := by
    intro d head space
    cases sign : n.sign with
    | none =>
      obtain rfl : c = d := by simpa [sign, Sign.text] using head
      simp [isHex, hexNibble_space space] at hexFront
    | plus | minus =>
      obtain rfl := by simpa [sign, Sign.text] using head
      exact absurd space (by decide)
  have run : (n.digits ++ rest).takeWhile isHex = n.digits ∧
      (n.digits ++ rest).dropWhile isHex = rest := by
    have stop : ∀ d ∈ rest.head?, ¬ isHex d := by
      intro d head
      simp [isHex, white.noHex d head]
    rw [List.takeWhile_append_of_pos hex, List.dropWhile_append_of_pos hex]
    cases rest with
    | nil => simp
    | cons d rest => simp [stop d rfl]
  rw [scan, body, leftTrim_append whiteBefore black, consumeSign_text _ hexFront]
  simp only
  rw [← front, consumeRadix_text readable.digits readable.some white]
  simp [run, Numeral.negate]

/-! ## One number -/

theorem intParse_iff {str : List Char} {out : Nat} {negate : Bool} :
    intParse str = some (out, negate) ↔ ∃ n : Numeral, n.Readable ∧ Padded str n.text ∧
      Rises n.radix.base 0 n.digits ∧ n.negate = negate ∧ out = n.magnitude % 2 ^ 64 := by
  have lazy : intParse str = some (out, negate) ↔
      ∃ rest, intParseLazy str = some (out, negate, rest) ∧ White rest := by
    cases found : intParseLazy str with
    | none => simp [intParse, found]
    | some result =>
      obtain ⟨value, negate', rest⟩ := result
      rw [intParse, found, Option.bind_eq_bind, Option.bind_some]
      simp only [leftTrim_eq_nil]
      split
      · next white =>
        simp only [Option.some.injEq, Prod.mk.injEq]
        exact ⟨fun ⟨value, sign⟩ => ⟨rest, ⟨value, sign, rfl⟩, white⟩,
          fun ⟨_, ⟨value, sign, _⟩, _⟩ => ⟨value, sign⟩⟩
      · next black =>
        refine ⟨by simp, ?_⟩
        rintro ⟨_, same, white⟩
        cases same
        exact absurd white black
  rw [lazy]
  constructor
  · rintro ⟨rest, parsed, white⟩
    obtain ⟨radix, digits, found, are, rises, rfl⟩ := intParseLazy_iff.1 parsed
    obtain ⟨n, readable, sign, rfl, rfl, before, whiteBefore, shape⟩ := scan_sound found are
    exact ⟨n, readable, ⟨before, rest, whiteBefore, white, shape⟩, rises, sign, rfl⟩
  · rintro ⟨n, readable, ⟨before, rest, whiteBefore, white, rfl⟩, rises, rfl, rfl⟩
    exact ⟨rest, intParseLazy_iff.2 ⟨_, _, scan_text readable whiteBefore white,
      readable.digits, rises, rfl⟩, white⟩

theorem Numeral.unique {str : List Char} {n n' : Numeral} (readable : n.Readable)
    (readable' : n'.Readable) (padded : Padded str n.text) (padded' : Padded str n'.text) :
    n.negate = n'.negate ∧ n.radix.base = n'.radix.base ∧ n.digits = n'.digits := by
  obtain ⟨before, rest, whiteBefore, white, shape⟩ := padded
  obtain ⟨before', rest', whiteBefore', white', shape'⟩ := padded'
  have found := scan_text readable whiteBefore white
  rw [← shape, shape', scan_text readable' whiteBefore' white'] at found
  simp only [Option.some.injEq, Prod.mk.injEq] at found
  exact ⟨found.1.symm, found.2.1.symm, found.2.2.1.symm⟩

theorem Numeral.magnitude_unique {str : List Char} {n n' : Numeral} (readable : n.Readable)
    (readable' : n'.Readable) (padded : Padded str n.text) (padded' : Padded str n'.text) :
    n.magnitude = n'.magnitude := by
  obtain ⟨_, base, digits⟩ := Numeral.unique readable readable' padded padded'
  rw [magnitude, magnitude, base, digits]

theorem le_digitsValue {radix : Nat} (positive : 0 < radix) (value : Nat) (digits : List Char) :
    value ≤ digitsValue radix value digits := by
  induction digits generalizing value with
  | nil => exact Nat.le_refl value
  | cons c digits ih =>
    calc value ≤ value * radix := Nat.le_mul_of_pos_right value positive
      _ ≤ value * radix + (hexNibble c).getD 0 := Nat.le_add_right _ _
      _ ≤ digitsValue radix value (c :: digits) := ih _

theorem rises_of_lt {radix : Nat} (positive : 0 < radix) {value : Nat} {digits : List Char}
    (fits : digitsValue radix value digits < 2 ^ 64) : Rises radix value digits := by
  induction digits generalizing value with
  | nil => trivial
  | cons c digits ih =>
    have rest := le_digitsValue positive (value * radix + (hexNibble c).getD 0) digits
    have first := Nat.le_mul_of_pos_right value positive
    change digitsValue radix (value * radix + (hexNibble c).getD 0) digits < _ at fits
    refine ⟨?_, ih fits⟩
    rw [Nat.mod_eq_of_lt (by omega), Nat.mod_eq_of_lt (by omega)]
    omega

theorem Radix.base_pos (radix : Radix) : 0 < radix.base := by
  cases radix <;> decide

def signedOf (value : Nat) (negate : Bool) : Int := if negate then -value else value

/-- What a store does with a number of 64 bits, for a parser of one type that
checks the range of another. -/
structure Stores (ty checked : IntType) (store : Nat → Bool → Option Int) : Prop where
  signed : checked.signed = ty.signed
  within : ∀ v, ty.Holds v → checked.Holds v
  admits : ∀ value < 2 ^ 64, ∀ negate, (store value negate).isSome ↔
    (negate → ty.signed) ∧ checked.Holds (signedOf value negate)
  exact : ∀ value < 2 ^ 64, ∀ negate out, ty.Holds (signedOf value negate) →
    store value negate = some out → out = signedOf value negate

def parseWith (store : Nat → Bool → Option Int) (str : List Char) : Option Int :=
  (intParse str).bind fun (value, negate) => store value negate

theorem IntType.lt_of_holds {ty : IntType} {n : Numeral} (holds : ty.Holds n.value) :
    n.magnitude < 2 ^ 64 := by
  cases ty <;> simp only [IntType.Holds, Numeral.value] at holds <;> split at holds <;> omega

theorem IntType.holds_zero (ty : IntType) : ty.Holds 0 := by
  cases ty <;> simp [IntType.Holds]

theorem IntType.holds_unsigned {ty : IntType} (unsigned : ty.signed = false) {v : Int}
    (holds : ty.Holds v) : 0 ≤ v := by
  cases ty <;> simp_all [IntType.Holds, IntType.signed]

section Stores

variable {ty checked : IntType} {store : Nat → Bool → Option Int} {str : List Char}

theorem parseWith_isSome (stores : Stores ty checked store) :
    (parseWith store str).isSome ↔ ∃ n : Numeral, n.Readable ∧ Padded str n.text ∧
      Rises n.radix.base 0 n.digits ∧ (n.negate → ty.signed) ∧
      checked.Holds (signedOf (n.magnitude % 2 ^ 64) n.negate) := by
  simp only [parseWith, Option.isSome_iff_exists, Option.bind_eq_some_iff, Prod.exists]
  constructor
  · rintro ⟨out, value, negate, parsed, stored⟩
    obtain ⟨n, readable, padded, rises, rfl, rfl⟩ := intParse_iff.1 parsed
    have admitted := (stores.admits _ (Nat.mod_lt _ (by decide)) _).1 (by rw [stored]; rfl)
    exact ⟨n, readable, padded, rises, admitted⟩
  · rintro ⟨n, readable, padded, rises, admitted⟩
    obtain ⟨out, stored⟩ := Option.isSome_iff_exists.1
      ((stores.admits _ (Nat.mod_lt _ (by decide)) _).2 admitted)
    exact ⟨out, _, _, intParse_iff.2 ⟨n, readable, padded, rises, rfl, rfl⟩, stored⟩

theorem parseWith_exact (stores : Stores ty checked store) {out v : Int}
    (parsed : parseWith store str = some out) (number : NumberIn ty str v) : out = v := by
  obtain ⟨⟨value, negate⟩, found, stored⟩ := Option.bind_eq_some_iff.1 parsed
  obtain ⟨n, readable, padded, _, rfl, rfl⟩ := intParse_iff.1 found
  obtain ⟨n', number, padded', rfl, holds⟩ := number
  have sign := (Numeral.unique readable number.readable padded padded').1
  have same := Numeral.magnitude_unique readable number.readable padded padded'
  have fits := IntType.lt_of_holds holds
  have value : signedOf (n.magnitude % 2 ^ 64) n.negate = n'.value := by
    rw [same, sign, Nat.mod_eq_of_lt fits]
    rfl
  rw [← value]
  exact stores.exact _ (Nat.mod_lt _ (by decide)) _ _ (value ▸ holds) stored

theorem Overread.not_number (past : Overread ty checked str) (v : Int) :
    ¬ NumberIn ty str v := by
  rintro ⟨n', number, padded', rfl, holds⟩
  cases past with
  | prefixAlone n readable padded _ empty =>
    have digits := (Numeral.unique readable number.readable padded padded').2.2
    exact number.2 (digits ▸ empty)
  | wrapped n readable padded _ beyond =>
    have same := Numeral.magnitude_unique readable number.readable padded padded'
    exact absurd (IntType.lt_of_holds holds) (by omega)
  | wide n readable padded outside =>
    have sign := (Numeral.unique readable number.readable padded padded').1
    have same := Numeral.magnitude_unique readable number.readable padded padded'
    rw [Numeral.value, sign, same] at outside
    exact outside holds

theorem Underread.number (under : Underread ty str) : NumberIn ty str 0 := by
  obtain ⟨_, n, number, padded, _, zero⟩ := under
  exact ⟨n, number, padded, by simp [Numeral.value, zero], ty.holds_zero⟩

theorem parseWith_taken (stores : Stores ty checked store) :
    (parseWith store str).isSome ↔
      Overread ty checked str ∨ ((∃ v, NumberIn ty str v) ∧ ¬ Underread ty str) := by
  rw [parseWith_isSome stores]
  constructor
  · rintro ⟨n, readable, padded, rises, signed, fits⟩
    by_cases empty : n.digits = []
    · exact .inl (.prefixAlone n readable padded signed empty)
    by_cases beyond : 2 ^ 64 ≤ n.magnitude
    · exact .inl (.wrapped n readable padded signed beyond rises fits)
    rw [Nat.mod_eq_of_lt (Nat.not_le.1 beyond)] at fits
    by_cases holds : ty.Holds n.value
    · refine .inr ⟨⟨_, n, ⟨readable.digits, empty⟩, padded, rfl, holds⟩, ?_⟩
      rintro ⟨unsigned, n', number, padded', minus, _⟩
      have sign := (Numeral.unique readable number.readable padded padded').1
      simp [unsigned, sign, minus] at signed
    · exact .inl (.wide n readable padded holds fits)
  · rintro (past | ⟨⟨_, n, number, padded, rfl, holds⟩, notUnder⟩)
    · cases past with
      | prefixAlone n readable padded signed empty =>
        refine ⟨n, readable, padded, by rw [empty]; trivial, signed, ?_⟩
        simpa [Numeral.magnitude, empty, digitsValue, signedOf] using checked.holds_zero
      | wrapped n readable padded signed _ unseen fits =>
        exact ⟨n, readable, padded, unseen, signed, fits⟩
      | wide n readable padded outside fits =>
        have small := IntType.lt_of_holds fits
        refine ⟨n, readable, padded, rises_of_lt n.radix.base_pos small, fun minus => ?_, ?_⟩
        · by_contra unsigned
          have positive := IntType.holds_unsigned
            (stores.signed.trans (Bool.eq_false_iff.2 unsigned)) fits
          have zero : n.value = 0 := by
            simp only [Numeral.value, minus, if_true] at positive ⊢
            omega
          exact outside (zero ▸ ty.holds_zero)
        · rw [Nat.mod_eq_of_lt small]
          exact fits
    · have small := IntType.lt_of_holds holds
      refine ⟨n, number.readable, padded, rises_of_lt n.radix.base_pos small,
        fun minus => ?_, ?_⟩
      · by_contra unsigned
        have unsigned := Bool.eq_false_iff.2 unsigned
        have positive := IntType.holds_unsigned unsigned holds
        simp only [Numeral.value, minus, if_true] at positive
        exact notUnder ⟨unsigned, n, number, padded, minus, by omega⟩
      · rw [Nat.mod_eq_of_lt small]
        exact stores.within _ holds

theorem parseWith_right (stores : Stores ty checked store) :
    (∀ out, parseWith store str = some out ↔ NumberIn ty str out) ↔
      ¬ Overread ty checked str ∧ ¬ Underread ty str := by
  constructor
  · intro right
    refine ⟨fun past => ?_, fun under => ?_⟩
    · obtain ⟨out, parsed⟩ := Option.isSome_iff_exists.1 ((parseWith_taken stores).2 (.inl past))
      exact past.not_number out ((right out).1 parsed)
    · have parsed := (right 0).2 under.number
      rcases (parseWith_taken stores).1 (by rw [parsed]; rfl) with past | taken
      · exact past.not_number 0 under.number
      · exact taken.2 under
  · rintro ⟨notOver, notUnder⟩ out
    constructor
    · intro parsed
      rcases (parseWith_taken stores).1 (by rw [parsed]; rfl) with past | ⟨⟨v, number⟩, _⟩
      · exact absurd past notOver
      · rwa [parseWith_exact stores parsed number]
    · intro number
      obtain ⟨v, parsed⟩ := Option.isSome_iff_exists.1
        ((parseWith_taken stores).2 (.inr ⟨⟨out, number⟩, notUnder⟩))
      rw [parsed, parseWith_exact stores parsed number]

end Stores

/-! ## The ten parsers -/

theorem two_pow_succ_cast (k : Nat) : ((2 ^ (k + 1) : Nat) : Int) = 2 ^ k * 2 := by
  rw [Nat.pow_succ]
  push_cast
  rfl

theorem bmod_self_iff {v : Int} (k : Nat) :
    v.bmod (2 ^ (k + 1)) = v ↔ -2 ^ k ≤ v ∧ v < 2 ^ k := by
  rw [Int.bmod_eq_iff (Nat.two_pow_pos _), Int.sub_self, two_pow_succ_cast]
  simp only [Int.dvd_zero, and_true]
  omega

theorem bmod_of_ge {v : Int} (k : Nat) (high : 2 ^ k ≤ v) (small : v < 2 ^ k * 2) :
    v.bmod (2 ^ (k + 1)) = v - 2 ^ k * 2 := by
  rw [Int.bmod_eq_iff (Nat.two_pow_pos _), two_pow_succ_cast]
  exact ⟨by omega, by omega, ⟨-1, by omega⟩⟩

theorem toInt64_low {value : Nat} (low : value < 2 ^ 63) : toInt64 value = value :=
  (bmod_self_iff 63).2 (by omega)

theorem toInt64_high {value : Nat} (high : 2 ^ 63 ≤ value) (small : value < 2 ^ 64) :
    toInt64 value = value - 2 ^ 64 := bmod_of_ge 63 (by omega) (by omega)

theorem signedValueOf_eq {value : Nat} (small : value < 2 ^ 64) (negate : Bool) :
    signedValueOf value negate =
      if -2 ^ 63 ≤ signedOf value negate ∧ signedOf value negate < 2 ^ 63 then
        some (signedOf value negate) else none := by
  cases negate with
  | false =>
    simp only [signedValueOf, signedOf, Bool.false_eq_true, if_false]
    by_cases low : value < 2 ^ 63
    · rw [toInt64_low low, if_neg (by omega), if_pos (by omega)]
    · rw [toInt64_high (by omega) small, if_pos (by omega), if_neg (by omega)]
  | true =>
    simp only [signedValueOf, signedOf, if_true]
    rcases Nat.lt_or_ge (2 ^ 63) value with high | low
    · rw [Nat.mod_eq_of_lt (by omega), toInt64_low (by omega), if_pos (by omega),
        if_neg (by omega)]
    · rcases Nat.eq_zero_or_pos value with rfl | positive
      · rfl
      · rw [Nat.mod_eq_of_lt (by omega), toInt64_high (by omega) (by omega), if_neg (by omega),
          if_pos (by omega)]
        congr 1
        omega

theorem Stores.int64 : Stores .int64 .int64 signedValueOf where
  signed := rfl
  within := fun _ holds => holds
  admits := fun value small negate => by
    rw [signedValueOf_eq small]
    split <;> simp_all [IntType.signed, IntType.Holds]
  exact := fun value small negate out _ stored => by
    rw [signedValueOf_eq small] at stored
    split at stored <;> simp_all

theorem int32Bmod {v : Int} : v.bmod (2 ^ 32) = v ↔ IntType.int32.Holds v := bmod_self_iff 31

theorem Stores.int32 : Stores .int32 .int32 fun value negate =>
    (signedValueOf value negate).bind fun value =>
      if value.bmod (2 ^ 32) ≠ value then none else some value where
  signed := rfl
  within := fun _ holds => holds
  admits := fun value small negate => by
    have inside : IntType.int32.Holds (signedOf value negate) →
        -2 ^ 63 ≤ signedOf value negate ∧ signedOf value negate < 2 ^ 63 := by
      simp only [IntType.Holds]
      omega
    rw [signedValueOf_eq small]
    split
    · rw [Option.bind_some]
      split <;> simp_all only [ne_eq, not_not, int32Bmod, IntType.signed] <;> simp_all
    · next outside => simp [mt inside outside]
  exact := fun value small negate out _ stored => by
    rw [signedValueOf_eq small] at stored
    split at stored
    · simp only [Option.bind_some] at stored
      split at stored <;> simp_all
    · simp at stored

theorem Stores.int32Array : Stores .int32 .int64 int32Store where
  signed := rfl
  within := fun v holds => by
    simp only [IntType.Holds] at holds ⊢
    omega
  admits := fun value small negate => by
    rw [int32Store, signedValueOf_eq small]
    split <;> simp_all [IntType.signed, IntType.Holds]
  exact := fun value small negate out holds stored => by
    rw [int32Store, signedValueOf_eq small] at stored
    split at stored
    · rw [← int32Bmod.2 holds]
      simpa [eq_comm] using stored
    · simp at stored

theorem Stores.unsigned {ty : IntType} {bits : Nat} (unsigned : ty.signed = false)
    (range : ∀ v : Int, ty.Holds v ↔ 0 ≤ v ∧ v < 2 ^ bits) : Stores ty ty (uintStore bits) where
  signed := rfl
  within := fun _ holds => holds
  admits := fun value _ negate => by
    have fits : value % 2 ^ bits = value ↔ value < 2 ^ bits :=
      ⟨fun same => same ▸ Nat.mod_lt _ (Nat.two_pow_pos bits), Nat.mod_eq_of_lt⟩
    have cast : ((value : Int) < 2 ^ bits) ↔ value < 2 ^ bits := by exact_mod_cast Iff.rfl
    cases negate with
    | true => simp [uintStore, unsigned]
    | false =>
      by_cases small : value < 2 ^ bits <;>
        simp [uintStore, range, signedOf, fits, cast, small]
  exact := fun value _ negate out _ stored => by
    simp only [uintStore] at stored
    split at stored
    · simp at stored
    · next taken =>
      obtain ⟨_, positive⟩ := not_or.1 taken
      simp_all [signedOf]

def IntType.store : IntType → Nat → Bool → Option Int
  | int32, value, negate => (signedValueOf value negate).bind fun value =>
    if value.bmod (2 ^ 32) ≠ value then none else some value
  | int64, value, negate => signedValueOf value negate
  | uint8, value, negate => uintStore 8 value negate
  | uint16, value, negate => uintStore 16 value negate
  | uint32, value, negate => uintStore 32 value negate
  | uint64, value, negate => uintStore 64 value negate

theorem IntType.stores (ty : IntType) : Stores ty ty ty.store := by
  cases ty with
  | int32 => exact Stores.int32
  | int64 => exact Stores.int64
  | uint8 | uint16 | uint32 | uint64 => exact Stores.unsigned rfl fun _ => Iff.rfl

theorem intParse_lt {str : List Char} {value : Nat} {negate : Bool}
    (parsed : intParse str = some (value, negate)) : value < 2 ^ 64 := by
  obtain ⟨n, _, _, _, _, rfl⟩ := intParse_iff.1 parsed
  exact Nat.mod_lt _ (by decide)

theorem IntType.parse_eq (ty : IntType) (str : List Char) :
    ty.parse str = parseWith ty.store str := by
  cases parsed : intParse str with
  | none =>
    cases ty <;> simp [IntType.parse, parseWith, int32Parse, int64Parse, uint8Parse, uint16Parse,
      uint32Parse, uint64Parse, parsed]
  | some found =>
    obtain ⟨value, negate⟩ := found
    have small := intParse_lt parsed
    cases ty with
    | int32 | int64 =>
      simp [IntType.parse, parseWith, int32Parse, int64Parse, IntType.store, parsed]
    | uint64 =>
      have same := Nat.mod_eq_of_lt small
      cases negate <;>
        simp only [IntType.parse, parseWith, uint64Parse, IntType.store, uintStore, parsed,
          Option.bind_some, same, ne_eq, not_true_eq_false, false_or]
      · rfl
      · rfl
    | uint8 | uint16 | uint32 =>
      cases negate <;>
        simp only [IntType.parse, parseWith, uint8Parse, uint16Parse, uint32Parse, uint64Parse,
          IntType.store, uintStore, parsed, Option.bind_some, Bool.false_eq_true, or_false,
          or_true, if_true, if_false, Option.bind_none, Option.map_none, narrow]
      split <;> rfl

/-! ## The fields of an array -/

theorem leftTrim_comma (str tail : List Char) :
    leftTrim (str ++ ',' :: tail) = leftTrim str ++ ',' :: tail := by
  induction str with
  | nil => rfl
  | cons c str ih => cases space : isSpace c <;> simp_all [leftTrim]

theorem consumeSign_comma (str tail : List Char) :
    consumeSign (str ++ ',' :: tail) = ((consumeSign str).1, (consumeSign str).2 ++ ',' :: tail) := by
  cases str with
  | nil => rfl
  | cons c str =>
    by_cases minus : c = '-'
    · simp [consumeSign, consumeChar, minus]
    · by_cases plus : c = '+' <;> simp [consumeSign, consumeChar, minus, plus]

theorem consumeRadix_comma (str tail : List Char) :
    consumeRadix (str ++ ',' :: tail) =
      (consumeRadix str).map fun (radix, str) => (radix, str ++ ',' :: tail) := by
  rcases str with _ | ⟨c, _ | ⟨d, str⟩⟩
  · rfl
  · simp only [List.cons_append, List.nil_append]
    unfold consumeRadix
    grind
  · simp only [List.cons_append]
    unfold consumeRadix
    grind

theorem intDigits_comma (radix value : Nat) (str tail : List Char) :
    intDigits radix value (str ++ ',' :: tail) =
      (intDigits radix value str).map fun (value, str) => (value, str ++ ',' :: tail) := by
  induction str generalizing value with
  | nil => rfl
  | cons c str ih =>
    simp only [List.cons_append, intDigits]
    cases hexNibble c with
    | none => rfl
    | some digit =>
      simp only
      split
      · rfl
      · split
        · rfl
        · exact ih _

theorem intParseLazy_comma (str tail : List Char) :
    intParseLazy (str ++ ',' :: tail) =
      (intParseLazy str).map fun (value, negate, str) => (value, negate, str ++ ',' :: tail) := by
  simp only [intParseLazy, leftTrim_comma, consumeSign_comma, consumeRadix_comma]
  cases consumeRadix (consumeSign (leftTrim str)).2 with
  | none => rfl
  | some found =>
    simp only [Option.map_some, Option.bind_eq_bind, Option.bind_some, intDigits_comma]
    cases intDigits found.1 0 found.2 <;> rfl

theorem intParseLazy_rest {str rest : List Char} {value : Nat} {negate : Bool}
    (parsed : intParseLazy str = some (value, negate, rest)) (noComma : ',' ∉ str) :
    ∀ c tail, leftTrim rest = c :: tail → c ≠ ',' := by
  rintro _ tail trimmed rfl
  obtain ⟨radix, digits, found, are, _⟩ := intParseLazy_iff.1 parsed
  obtain ⟨n, _, _, _, _, before, _, rfl⟩ := scan_sound found are
  obtain ⟨white, _, shape⟩ := leftTrim_split rest
  rw [trimmed] at shape
  exact noComma (by rw [shape]; simp)

section Store

variable (store : Nat → Bool → Option Int)

theorem arrayParse_last (room : Nat) {str : List Char} (noComma : ',' ∉ str) :
    arrayParse store (room + 1) str = (parseWith store str).map fun out => [out] := by
  cases parsed : intParseLazy str with
  | none => simp [arrayParse, parseWith, intParse, parsed]
  | some found =>
    obtain ⟨value, negate, rest⟩ := found
    cases trimmed : leftTrim rest with
    | nil => cases stored : store value negate <;>
        simp [arrayParse, parseWith, intParse, parsed, trimmed, stored]
    | cons c tail =>
      have other := intParseLazy_rest parsed noComma c tail trimmed
      cases stored : store value negate <;>
        simp [arrayParse, parseWith, intParse, parsed, trimmed, stored, other]

theorem arrayParse_field (room : Nat) {str : List Char} (noComma : ',' ∉ str) (tail : List Char) :
    arrayParse store (room + 1) (str ++ ',' :: tail) =
      (parseWith store str).bind fun out => (arrayParse store room tail).map (out :: ·) := by
  rw [arrayParse, intParseLazy_comma]
  cases parsed : intParseLazy str with
  | none => simp [parseWith, intParse, parsed]
  | some found =>
    obtain ⟨value, negate, rest⟩ := found
    simp only [Option.map_some, leftTrim_comma]
    cases trimmed : leftTrim rest with
    | nil => cases stored : store value negate <;>
        simp [parseWith, intParse, parsed, trimmed, stored]
    | cons c tail =>
      have other := intParseLazy_rest parsed noComma c tail trimmed
      cases store value negate <;> simp [parseWith, intParse, parsed, trimmed, other]

theorem arrayParse_iff {room : Nat} {str : List Char} {out : List Int} :
    arrayParse store room str = some out ↔ (str.splitOn ',').length ≤ room ∧
      List.Forall₂ (fun field v => parseWith store field = some v) (str.splitOn ',') out := by
  induction room generalizing str out with
  | zero => simp [arrayParse]
  | succ room ih =>
    by_cases comma : ',' ∈ str
    · obtain ⟨field, tail, rfl, noComma⟩ := List.eq_append_cons_of_mem comma
      rw [arrayParse_field store room noComma, List.splitOn_append_cons_self_of_not_mem noComma]
      simp only [Option.bind_eq_some_iff, Option.map_eq_some_iff, ih, List.length_cons,
        Nat.add_le_add_iff_right, List.forall₂_cons_left_iff]
      constructor
      · rintro ⟨v, parsed, outs, ⟨fits, fields⟩, rfl⟩
        exact ⟨fits, v, outs, parsed, fields, rfl⟩
      · rintro ⟨fits, v, outs, parsed, fields, rfl⟩
        exact ⟨v, parsed, outs, ⟨fits, fields⟩, rfl⟩
    · rw [arrayParse_last store room comma, List.splitOn_eq_singleton comma]
      simp only [Option.map_eq_some_iff, List.length_singleton, Nat.le_add_left, true_and,
        List.forall₂_cons_left_iff, List.forall₂_nil_left_iff]
      constructor
      · rintro ⟨v, parsed, rfl⟩
        exact ⟨v, [], parsed, rfl, rfl⟩
      · rintro ⟨v, _, parsed, rfl, rfl⟩
        exact ⟨v, parsed, rfl⟩

end Store

theorem forall₂_exists {α β : Type} {R : α → β → Prop} {fields : List α}
    (found : ∀ field ∈ fields, ∃ v, R field v) : ∃ out, List.Forall₂ R fields out := by
  induction fields with
  | nil => exact ⟨[], .nil⟩
  | cons field fields ih =>
    obtain ⟨v, first⟩ := found field List.mem_cons_self
    obtain ⟨out, rest⟩ := ih fun field member => found field (List.mem_cons_of_mem _ member)
    exact ⟨v :: out, .cons first rest⟩

theorem forall₂_mem {α β : Type} {R : α → β → Prop} {fields : List α} {out : List β}
    (all : List.Forall₂ R fields out) {field : α} (member : field ∈ fields) : ∃ v, R field v := by
  induction all with
  | nil => simp at member
  | cons first _ ih =>
    rcases List.mem_cons.1 member with rfl | member
    · exact ⟨_, first⟩
    · exact ih member

theorem forall₂_congr {α β : Type} {R S : α → β → Prop} {fields : List α} {out : List β}
    (same : ∀ field ∈ fields, ∀ v, R field v ↔ S field v) :
    List.Forall₂ R fields out ↔ List.Forall₂ S fields out := by
  induction fields generalizing out with
  | nil => simp
  | cons field fields ih =>
    simp only [List.forall₂_cons_left_iff, same field List.mem_cons_self,
      ih fun field member => same field (List.mem_cons_of_mem _ member)]

def NumbersIn (ty : IntType) (room : Nat) (str : List Char) (out : List Int) : Prop :=
  (str.splitOn ',').length ≤ room ∧ List.Forall₂ (NumberIn ty) (str.splitOn ',') out

def Settled (ty checked : IntType) (room : Nat) (str : List Char) : Prop :=
  room < (str.splitOn ',').length ∨
    (∀ field ∈ str.splitOn ',', ¬ Overread ty checked field ∧ ¬ Underread ty field) ∨
    (∃ field ∈ str.splitOn ',', ¬ Overread ty checked field ∧
      ((∀ v, ¬ NumberIn ty field v) ∨ Underread ty field)) ∧
      ∃ field ∈ str.splitOn ',', ∀ v, ¬ NumberIn ty field v

theorem arrayParse_right {ty checked : IntType} {store : Nat → Bool → Option Int}
    (stores : Stores ty checked store) (room : Nat) (str : List Char) :
    (∀ out, arrayParse store room str = some out ↔ NumbersIn ty room str out) ↔
      Settled ty checked room str := by
  simp only [arrayParse_iff, NumbersIn]
  by_cases fits : (str.splitOn ',').length ≤ room
  swap
  · simp [Settled, fits, Nat.not_le.1 fits]
  have taken : ∀ field, (∃ v, parseWith store field = some v) ↔
      Overread ty checked field ∨ ((∃ v, NumberIn ty field v) ∧ ¬ Underread ty field) :=
    fun field => by rw [← Option.isSome_iff_exists, parseWith_taken stores]
  simp only [fits, true_and, Settled, Nat.not_lt.2 fits, false_or]
  constructor
  · intro right
    by_cases numbers : ∀ field ∈ str.splitOn ',', ∃ v, NumberIn ty field v
    · -- the code reads them too, each as what it is
      obtain ⟨out, all⟩ := forall₂_exists numbers
      have read := (right out).2 all
      refine .inl fun field member => ⟨fun past => ?_, fun under => ?_⟩
      · obtain ⟨v, number⟩ := numbers field member
        exact past.not_number v number
      · rcases (taken field).1 (forall₂_mem read member) with past | ⟨_, notUnder⟩
        · exact past.not_number 0 under.number
        · exact notUnder under
    · push Not at numbers
      refine .inr ⟨?_, numbers⟩
      by_contra none
      obtain ⟨field, member, noNumber⟩ := numbers
      have all : ∀ field ∈ str.splitOn ',', ∃ v, parseWith store field = some v := by
        intro field member
        by_contra refused
        rw [taken, not_or, not_and_or, not_not, not_exists] at refused
        exact none ⟨field, member, refused⟩
      obtain ⟨out, read⟩ := forall₂_exists all
      obtain ⟨v, number⟩ := forall₂_mem ((right out).1 read) member
      exact noNumber v number
  · rintro (fine | ⟨⟨field, member, notOver, refused⟩, other, memberOther, noNumber⟩) out
    · exact forall₂_congr fun field member => (parseWith_right stores).2 (fine field member)
    · refine ⟨fun read => ?_, fun all => ?_⟩
      · rcases (taken field).1 (forall₂_mem read member) with past | ⟨⟨v, number⟩, notUnder⟩
        · exact absurd past notOver
        · rcases refused with none | under
          · exact absurd number (none v)
          · exact absurd under notUnder
      · obtain ⟨v, number⟩ := forall₂_mem all memberOther
        exact absurd number (noNumber v)

inductive ArrayType
  | int32
  | uint32
  | uint16
  | uint8

namespace ArrayType

def element : ArrayType → IntType
  | int32 => .int32
  | uint32 => .uint32
  | uint16 => .uint16
  | uint8 => .uint8

def checked : ArrayType → IntType
  | int32 => .int64
  | uint32 => .uint32
  | uint16 => .uint16
  | uint8 => .uint8

def parse : ArrayType → Nat → List Char → Option (List Int)
  | int32 => int32ArrayParse
  | uint32 => uint32ArrayParse
  | uint16 => uint16ArrayParse
  | uint8 => uint8ArrayParse

theorem parse_right (ty : ArrayType) (room : Nat) (str : List Char) :
    (∀ out, ty.parse room str = some out ↔ NumbersIn ty.element room str out) ↔
      Settled ty.element ty.checked room str := by
  cases ty with
  | int32 => exact arrayParse_right Stores.int32Array room str
  | uint32 | uint16 | uint8 =>
    exact arrayParse_right (Stores.unsigned rfl fun _ => Iff.rfl) room str

end ArrayType

theorem parsers_right_iff (str : List Char) :
    (∀ ty : IntType, (∀ out, ty.parse str = some out ↔ NumberIn ty str out) ↔
        ¬ Overread ty ty str ∧ ¬ Underread ty str) ∧
      ∀ (ty : ArrayType) (room : Nat),
        (∀ out, ty.parse room str = some out ↔ NumbersIn ty.element room str out) ↔
          Settled ty.element ty.checked room str := by
  refine ⟨fun ty => ?_, fun ty room => ty.parse_right room str⟩
  simp only [IntType.parse_eq]
  exact parseWith_right ty.stores

/-- Ten times 2^61 is read as 2^62. -/
theorem int64Parse_wrapped :
    ¬ ∀ out, IntType.int64.parse "23058430092136939520".toList = some out ↔
      NumberIn .int64 "23058430092136939520".toList out := by
  intro right
  have wrapped : Overread .int64 .int64 "23058430092136939520".toList :=
    .wrapped ⟨.none, .dec, "23058430092136939520".toList⟩
      ⟨by simp [AreDigits, hexNibble, Radix.base], by decide⟩
      ⟨[], [], by simp [White], by simp [White], by decide⟩ (by decide) (by decide) (by decide) (by decide)
  exact wrapped.not_number (2 ^ 62) ((right (2 ^ 62)).1 (by decide))

end VendorModules.Qdf
