import VendorModules.Qdf.Text
import Mathlib.Logic.Function.Basic

namespace VendorModules.Qdf

open Function

/-! `qdf_ipv6_parse`. -/

def hextetDigits : Nat → Nat → Nat → List Char → Nat × Nat × List Char
  | 0, hextet, len, str => (hextet, len, str)
  | left + 1, hextet, len, str =>
    match consumeHex str with
    | none => (hextet, len, str)
    | some (digit, str) => hextetDigits left (hextet * 16 + digit) (len + 1) str

/-- `qdf_consume_hextet`: four digits fit its 16 bits. -/
def consumeHextet (str : List Char) : Option (Nat × List Char) :=
  let (hextet, len, str) := hextetDigits 4 0 0 str
  if len = 0 then none else some (hextet, str)

/-- What the loop writes: the address, `zero_comp` with no value for -1, and how
many hextets it found. -/
structure Ipv6State where
  bytes : Nat → Nat
  zeroComp : Option Nat
  found : Nat

def Ipv6State.push (st : Ipv6State) (hextet : Nat) : Ipv6State :=
  { st with
    bytes := update (update st.bytes (st.found * 2) (hextet / 256)) (st.found * 2 + 1)
      (hextet % 256)
    found := st.found + 1 }

def Ipv6State.compress (st : Ipv6State) : Ipv6State := { st with zeroComp := some st.found }

def ipv6Loop : Nat → Ipv6State → List Char → Option (Ipv6State × List Char)
  | 0, st, str => some (st, str)
  | left + 1, st, str =>
    match consumeHextet str with
    | none => if some st.found = st.zeroComp then some (st, str) else none
    | some (hextet, str) =>
      let st := st.push hextet
      match consumeChar ':' str with
      | none => some (st, str)
      | some str =>
        match consumeChar ':' str with
        | none => ipv6Loop left st str
        | some str =>
          if st.zeroComp.isSome then none
          else ipv6Loop left st.compress str

/-- `qdf_ipv6_apply_zero_comp` -/
def applyZeroComp (bytes : Nat → Nat) (hextets zeroComp : Nat) : Nat → Nat :=
  let size := (8 - hextets) * 2
  let toMove := (hextets - zeroComp) * 2
  let src := zeroComp * 2
  let dest := src + size
  let moved := fun i => if dest ≤ i ∧ i < dest + toMove then bytes (i - size) else bytes i
  fun i => if src ≤ i ∧ i < dest then 0 else moved i

def Ipv6State.finish (st : Ipv6State) : Option (Nat → Nat) :=
  if st.found < 8 then st.zeroComp.map (applyZeroComp st.bytes st.found)
  else if st.zeroComp.isSome then none
  else some st.bytes

def leadingZeroComp (str : List Char) : Option (Option Nat × List Char) :=
  match consumeChar ':' str with
  | none => some (none, str)
  | some str => (consumeChar ':' str).map (some 0, ·)

/-- `qdf_ipv6_parse`, with what is in the memory of its local address. -/
def ipv6Parse (addr : Nat → Nat) (str : List Char) : Option (List Nat) := do
  let (zeroComp, str) ← leadingZeroComp (leftTrim str)
  let (st, str) ← ipv6Loop 8 ⟨addr, zeroComp, 0⟩ str
  if leftTrim str ≠ [] then none
  else st.finish.map fun bytes => (List.range 16).map bytes

/-! ## Addresses -/

abbrev Group := List Char

abbrev IsGroup (group : Group) : Prop :=
  group ≠ [] ∧ group.length ≤ 4 ∧ ∀ c ∈ group, (hexNibble c).isSome

def groupValue (group : Group) : Nat :=
  group.foldl (fun value c => value * 16 + (hexNibble c).getD 0) 0

def joined (groups : List Group) : List Char := [':'].intercalate groups

def addressBytes (hextets : List Nat) : List Nat :=
  hextets.flatMap fun hextet => [hextet / 256, hextet % 256]

inductive Ipv6Text : List Char → List Nat → Prop
  | full (groups : List Group) (valid : ∀ group ∈ groups, IsGroup group)
      (eight : groups.length = 8) :
      Ipv6Text (joined groups) (addressBytes (groups.map groupValue))
  | compressed (left right : List Group)
      (valid : ∀ group ∈ left ++ right, IsGroup group)
      (fewer : left.length + right.length < 8) :
      Ipv6Text (joined left ++ ':' :: ':' :: joined right)
        (addressBytes (left.map groupValue ++
          List.replicate (8 - (left.length + right.length)) 0 ++ right.map groupValue))

def Ipv6Address (str : List Char) (bytes : List Nat) : Prop :=
  ∃ text, Padded str text ∧ Ipv6Text text bytes

def TrailingColon (str : List Char) : Prop :=
  ∃ groups : List Group, (∀ group ∈ groups, IsGroup group) ∧ groups.length = 8 ∧
    Padded str (joined groups ++ [':'])

/-! ## One group -/

theorem hextetDigits_eq (left hextet len : Nat) (str : List Char) :
    let group := (str.take left).takeWhile fun c => (hexNibble c).isSome
    hextetDigits left hextet len str =
      (group.foldl (fun value c => value * 16 + (hexNibble c).getD 0) hextet,
        len + group.length, str.drop group.length) := by
  induction left generalizing hextet len str with
  | zero => simp [hextetDigits]
  | succ left ih =>
    cases str with
    | nil => simp [hextetDigits, consumeHex]
    | cons c tail =>
      cases found : hexNibble c with
      | none => simp [hextetDigits, consumeHex, found]
      | some digit => simp [hextetDigits, consumeHex, found, ih]; omega

theorem consumeHextet_sound {str rest : List Char} {hextet : Nat}
    (parsed : consumeHextet str = some (hextet, rest)) :
    ∃ group, IsGroup group ∧ hextet = groupValue group ∧ str = group ++ rest := by
  rw [consumeHextet, hextetDigits_eq] at parsed
  generalize shape : (str.take 4).takeWhile (fun c => (hexNibble c).isSome) = group at parsed
  have fits : group <+: str.take 4 := shape ▸ List.takeWhile_prefix _
  simp only [Nat.zero_add, List.length_eq_zero_iff, Option.ite_none_left_eq_some,
    Option.some.injEq, Prod.mk.injEq] at parsed
  obtain ⟨some, rfl, rfl⟩ := parsed
  refine ⟨group, ⟨some, ?_, ?_⟩, rfl, ?_⟩
  · exact fits.length_le.trans (List.length_take_le _ _)
  · rw [← shape]
    exact fun c => List.mem_takeWhile_imp (p := fun c => (hexNibble c).isSome)
  · exact List.prefix_iff_eq_append.mp (fits.trans (List.take_prefix 4 str)) |>.symm

theorem consumeHextet_complete {group rest : List Char} (valid : IsGroup group)
    (stop : NoHex rest) : consumeHextet (group ++ rest) = some (groupValue group, rest) := by
  obtain ⟨some, short, digits⟩ := valid
  have shape : ((group ++ rest).take 4).takeWhile (fun c => (hexNibble c).isSome) = group := by
    rw [List.take_append, List.take_of_length_le short, List.takeWhile_append_of_pos digits]
    cases rest with
    | nil => simp
    | cons c tail =>
      have blank : hexNibble c = none := stop c rfl
      cases 4 - group.length with
      | zero => simp
      | succ left => simp [blank]
  rw [consumeHextet, hextetDigits_eq, shape]
  simp [some, groupValue]

theorem consumeHextet_none {str : List Char} : consumeHextet str = none ↔ NoHex str := by
  rw [consumeHextet, hextetDigits_eq]
  cases str with
  | nil => simp [NoHex]
  | cons c tail => cases found : hexNibble c <;> simp [NoHex, found]

theorem IsGroup.cons {group : Group} (valid : IsGroup group) :
    ∃ c tail, group = c :: tail ∧ (hexNibble c).isSome := by
  obtain ⟨some, -, digits⟩ := valid
  obtain ⟨c, tail, rfl⟩ := List.exists_cons_of_ne_nil some
  exact ⟨c, tail, rfl, digits c List.mem_cons_self⟩

theorem noHex_colon (tail : List Char) : NoHex (':' :: tail) := by
  rintro c ⟨⟩
  rfl

/-! ## The loop, a group at a time -/

def Ipv6State.pushAll (st : Ipv6State) (groups : List Group) : Ipv6State :=
  groups.foldl (fun st group => st.push (groupValue group)) st

@[simp] theorem Ipv6State.pushAll_cons (st : Ipv6State) (group : Group) (groups : List Group) :
    st.pushAll (group :: groups) = (st.push (groupValue group)).pushAll groups := rfl

@[simp] theorem Ipv6State.pushAll_nil (st : Ipv6State) : st.pushAll [] = st := rfl

theorem Ipv6State.pushAll_concat (st : Ipv6State) (groups : List Group) (group : Group) :
    st.pushAll (groups ++ [group]) = (st.pushAll groups).push (groupValue group) := by
  simp [pushAll]

@[simp] theorem Ipv6State.pushAll_found (st : Ipv6State) (groups : List Group) :
    (st.pushAll groups).found = st.found + groups.length := by
  induction groups generalizing st with
  | nil => rfl
  | cons group groups ih =>
    rw [pushAll_cons, ih, List.length_cons]
    exact Nat.add_right_comm _ _ _

@[simp] theorem Ipv6State.pushAll_zeroComp (st : Ipv6State) (groups : List Group) :
    (st.pushAll groups).zeroComp = st.zeroComp := by
  induction groups generalizing st with
  | nil => rfl
  | cons group groups ih => exact ih _

theorem joined_cons (group : Group) {groups : List Group} (more : groups ≠ []) :
    joined (group :: groups) = group ++ ':' :: joined groups := by
  obtain ⟨next, rest, rfl⟩ := List.exists_cons_of_ne_nil more
  simp [joined, List.intercalate, List.intersperse]

@[simp] theorem joined_nil : joined [] = [] := rfl

@[simp] theorem joined_singleton (group : Group) : joined [group] = group := by
  simp [joined, List.intercalate]

section

variable {left z : Nat} {st st' : Ipv6State} {str rest : List Char} {group : Group}
  {groups : List Group}

theorem ipv6Loop_stop (left : Nat) (st : Ipv6State) (valid : IsGroup group)
    (stop : NoHex rest) (open_ : ∀ tail, rest ≠ ':' :: tail) :
    ipv6Loop (left + 1) st (group ++ rest) = some (st.push (groupValue group), rest) := by
  simp only [ipv6Loop, consumeHextet_complete valid stop, consumeChar_eq_none.mpr open_]

theorem ipv6Loop_colon (left : Nat) (st : Ipv6State) (valid : IsGroup group)
    (single : ∀ tail, str ≠ ':' :: tail) :
    ipv6Loop (left + 1) st (group ++ ':' :: str) =
      ipv6Loop left (st.push (groupValue group)) str := by
  simp only [ipv6Loop, consumeHextet_complete valid (noHex_colon str),
    consumeChar_eq_some.mpr rfl, consumeChar_eq_none.mpr single]

theorem ipv6Loop_double (left : Nat) (valid : IsGroup group) (first : st.zeroComp = none)
    (str : List Char) :
    ipv6Loop (left + 1) st (group ++ ':' :: ':' :: str) =
      ipv6Loop left (st.push (groupValue group)).compress str := by
  simp only [ipv6Loop, consumeHextet_complete valid (noHex_colon _),
    consumeChar_eq_some.mpr rfl, Ipv6State.push, first]
  rfl

theorem ipv6Loop_end (left : Nat) (stop : NoHex str) :
    ipv6Loop (left + 1) st str = if some st.found = st.zeroComp then some (st, str) else none := by
  simp only [ipv6Loop, consumeHextet_none.mpr stop]

theorem ipv6Loop_cases (parsed : ipv6Loop (left + 1) st str = some (st', rest)) :
    (some st.found = st.zeroComp ∧ st' = st ∧ str = rest) ∨
      ∃ group, IsGroup group ∧
        ((st' = st.push (groupValue group) ∧ str = group ++ rest) ∨
          (∃ later, str = group ++ ':' :: later ∧ (∀ tail, later ≠ ':' :: tail) ∧
            ipv6Loop left (st.push (groupValue group)) later = some (st', rest)) ∨
          ∃ later, str = group ++ ':' :: ':' :: later ∧ st.zeroComp = none ∧
            ipv6Loop left (st.push (groupValue group)).compress later = some (st', rest)) := by
  cases hextet : consumeHextet str with
  | none =>
    rw [ipv6Loop_end left (consumeHextet_none.mp hextet)] at parsed
    simp only [Option.ite_none_right_eq_some, Option.some.injEq, Prod.mk.injEq] at parsed
    exact .inl ⟨parsed.1, parsed.2.1.symm, parsed.2.2⟩
  | some found =>
    obtain ⟨group, valid, value, rfl⟩ := consumeHextet_sound hextet
    refine .inr ⟨group, valid, ?_⟩
    simp only [ipv6Loop, hextet] at parsed
    rw [value] at parsed
    cases colon : consumeChar ':' found.2 with
    | none =>
      simp only [colon, Option.some.injEq, Prod.mk.injEq] at parsed
      exact .inl ⟨parsed.1.symm, by rw [parsed.2]⟩
    | some later =>
      rw [consumeChar_eq_some.mp colon]
      simp only [colon] at parsed
      cases again : consumeChar ':' later with
      | none =>
        simp only [again] at parsed
        exact .inr (.inl ⟨later, rfl, consumeChar_eq_none.mp again, parsed⟩)
      | some last =>
        simp only [again, Option.ite_none_left_eq_some] at parsed
        refine .inr (.inr ⟨last, by rw [consumeChar_eq_some.mp again], ?_, parsed.2⟩)
        simpa [Ipv6State.push] using parsed.1

/-! ## What the loop accepts -/

theorem joined_black (some : groups ≠ []) (valid : ∀ group ∈ groups, IsGroup group) :
    ∃ c tail, joined groups = c :: tail ∧ (hexNibble c).isSome := by
  obtain ⟨group, later, rfl⟩ := List.exists_cons_of_ne_nil some
  obtain ⟨c, tail, rfl, digit⟩ := (valid group List.mem_cons_self).cons
  by_cases last : later = []
  · exact ⟨c, tail, by rw [last, joined_singleton], digit⟩
  · exact ⟨c, _, by rw [joined_cons _ last, List.cons_append], digit⟩

theorem joined_ne_colon (some : groups ≠ []) (valid : ∀ group ∈ groups, IsGroup group)
    (str tail : List Char) : joined groups ++ str ≠ ':' :: tail := by
  obtain ⟨c, later, shape, digit⟩ := joined_black some valid
  rw [shape]
  intro same
  rw [(List.cons.inj same).1] at digit
  exact absurd digit (by decide)

theorem ipv6Loop_before (left : Nat) (valid : ∀ group ∈ groups, IsGroup group)
    (last : IsGroup group) (str : List Char) :
    ipv6Loop (groups.length + left) st (joined (groups ++ [group]) ++ str) =
      ipv6Loop left (st.pushAll groups) (group ++ str) := by
  induction groups generalizing st with
  | nil => simp
  | cons head groups ih =>
    obtain ⟨headValid, valid⟩ := List.forall_mem_cons.mp valid
    have more : groups ++ [group] ≠ [] := List.append_ne_nil_of_right_ne_nil _ (by simp)
    have all : ∀ member ∈ groups ++ [group], IsGroup member := by
      intro member found
      obtain old | new := List.mem_append.mp found
      · exact valid member old
      · exact List.mem_singleton.mp new ▸ last
    rw [List.cons_append, joined_cons head more, List.length_cons, Nat.add_right_comm,
      List.append_assoc, List.cons_append,
      ipv6Loop_colon _ _ headValid (joined_ne_colon more all str), ih valid, Ipv6State.pushAll_cons]

theorem ipv6Loop_groups (valid : ∀ group ∈ groups, IsGroup group) (fits : groups.length ≤ left)
    (start : groups = [] → 0 < left ∧ some st.found = st.zeroComp) (white : White rest) :
    ipv6Loop left st (joined groups ++ rest) = some (st.pushAll groups, rest) := by
  obtain rfl | ⟨before, group, shape⟩ := List.eq_nil_or_concat groups
  · obtain ⟨more, here⟩ := start rfl
    obtain ⟨left, rfl⟩ := Nat.exists_eq_add_of_lt more
    exact (ipv6Loop_end _ white.noHex).trans (if_pos here)
  · rw [List.concat_eq_append] at shape
    subst shape
    obtain ⟨valid, last⟩ := List.forall_mem_append.mp valid
    obtain ⟨left, rfl⟩ := Nat.exists_eq_add_of_le fits
    have last := last group List.mem_cons_self
    rw [List.length_append, List.length_singleton, Nat.add_assoc, Nat.add_comm 1,
      ipv6Loop_before _ valid last, ipv6Loop_stop _ _ last white.noHex
        (white.head_ne (by decide)), Ipv6State.pushAll_concat]

theorem ipv6Loop_trailing (valid : ∀ group ∈ groups, IsGroup group) (some_ : groups ≠ [])
    (white : White rest) :
    ipv6Loop groups.length st (joined groups ++ ':' :: rest) = some (st.pushAll groups, rest) := by
  obtain rfl | ⟨before, group, shape⟩ := List.eq_nil_or_concat groups
  · exact absurd rfl some_
  · rw [List.concat_eq_append] at shape
    subst shape
    obtain ⟨valid, last⟩ := List.forall_mem_append.mp valid
    have last := last group List.mem_cons_self
    rw [List.length_append, List.length_singleton, ipv6Loop_before _ valid last,
      ipv6Loop_colon _ _ last (white.head_ne (by decide))]
    rw [Ipv6State.pushAll_concat]
    rfl

theorem ipv6Loop_compressed (valid : ∀ group ∈ groups, IsGroup group) (some_ : groups ≠ [])
    (plain : st.zeroComp = none) (left : Nat) (str : List Char) :
    ipv6Loop (groups.length + left) st (joined groups ++ ':' :: ':' :: str) =
      ipv6Loop left (st.pushAll groups).compress str := by
  obtain rfl | ⟨before, group, shape⟩ := List.eq_nil_or_concat groups
  · exact absurd rfl some_
  · rw [List.concat_eq_append] at shape
    subst shape
    obtain ⟨valid, last⟩ := List.forall_mem_append.mp valid
    have last := last group List.mem_cons_self
    rw [List.length_append, List.length_singleton, Nat.add_assoc, Nat.add_comm 1,
      ipv6Loop_before _ valid last, ipv6Loop_double _ last (by simpa using plain)]
    rw [Ipv6State.pushAll_concat]

theorem ipv6Loop_sound_after {bytes : Nat → Nat}
    (parsed : ipv6Loop left st str = some (st', rest)) (finished : st'.finish = some bytes)
    (compressed : st.zeroComp = some z) (behind : z ≤ st.found) (eight : st.found + left = 8) :
    ∃ groups, (∀ group ∈ groups, IsGroup group) ∧ st' = st.pushAll groups ∧
      str = joined groups ++ rest ∧ (groups = [] → st.found = z) := by
  induction left generalizing st str with
  | zero =>
    obtain ⟨rfl, rfl⟩ := Prod.mk.inj (Option.some.inj parsed)
    simp [Ipv6State.finish, compressed, show ¬ st.found < 8 by omega] at finished
  | succ left ih =>
    obtain ⟨here, rfl, rfl⟩ | ⟨group, valid, ⟨rfl, rfl⟩ | ⟨later, rfl, -, parsed⟩ |
      ⟨later, -, none, -⟩⟩ := ipv6Loop_cases parsed
    · exact ⟨[], by simp, rfl, rfl, fun _ => Option.some.inj (here.trans compressed)⟩
    · exact ⟨[group], by simpa using valid, rfl, by simp, by simp⟩
    · obtain ⟨groups, all, rfl, rfl, start⟩ := ih parsed compressed
        (Nat.le_succ_of_le behind) (by simp only [Ipv6State.push]; omega)
      have more : groups ≠ [] := by
        intro none
        have := start none
        simp only [Ipv6State.push] at this
        omega
      exact ⟨group :: groups, List.forall_mem_cons.mpr ⟨valid, all⟩, rfl,
        by simp [joined_cons group more], by simp⟩
    · simp [compressed] at none

theorem ipv6Loop_sound {bytes : Nat → Nat}
    (parsed : ipv6Loop left st str = some (st', rest)) (finished : st'.finish = some bytes)
    (plain : st.zeroComp = none) (eight : st.found + left = 8) (more : 0 < left) :
    (∃ groups, (∀ group ∈ groups, IsGroup group) ∧ groups.length = left ∧
      st' = st.pushAll groups ∧
      (str = joined groups ++ rest ∨ str = joined groups ++ ':' :: rest)) ∨
    ∃ before after, before ≠ [] ∧ (∀ group ∈ before ++ after, IsGroup group) ∧
      st' = (st.pushAll before).compress.pushAll after ∧
      str = joined before ++ ':' :: ':' :: (joined after ++ rest) := by
  induction left generalizing st str with
  | zero => exact absurd more (Nat.lt_irrefl 0)
  | succ left ih =>
    obtain ⟨here, -, -⟩ | ⟨group, valid, ⟨rfl, rfl⟩ | ⟨later, rfl, single, parsed⟩ |
      ⟨later, rfl, -, parsed⟩⟩ := ipv6Loop_cases parsed
    · simp [plain] at here
    · by_cases last : left = 0
      · exact .inl ⟨[group], by simpa using valid, by simp [last], rfl, .inl (by simp)⟩
      · simp [Ipv6State.finish, Ipv6State.push, plain, show st.found + 1 < 8 by omega] at finished
    · have counted : (st.push (groupValue group)).found + left = 8 := by
        simp only [Ipv6State.push]
        omega
      by_cases last : left = 0
      · subst last
        obtain ⟨rfl, rfl⟩ := Prod.mk.inj (Option.some.inj parsed)
        exact .inl ⟨[group], by simpa using valid, rfl, rfl, .inr (by simp)⟩
      obtain ⟨groups, all, length, rfl, shape⟩ | ⟨before, after, some, all, rfl, rfl⟩ :=
        ih parsed plain counted (Nat.pos_of_ne_zero last)
      · have some : groups ≠ [] := by
          rintro rfl
          exact last length.symm
        refine .inl ⟨group :: groups, List.forall_mem_cons.mpr ⟨valid, all⟩, by simp [length], rfl,
          ?_⟩
        rw [joined_cons group some]
        exact shape.imp (fun same => by simp [same]) fun same => by simp [same]
      · exact .inr ⟨group :: before, after, by simp, List.forall_mem_cons.mpr ⟨valid, all⟩,
          rfl, by simp [joined_cons group some]⟩
    · obtain ⟨groups, all, rfl, rfl, -⟩ := ipv6Loop_sound_after parsed finished rfl le_rfl
        (by simp only [Ipv6State.push, Ipv6State.compress]; omega)
      exact .inr ⟨[group], groups, by simp, List.forall_mem_cons.mpr ⟨valid, all⟩, rfl, by simp⟩

/-! ## The bytes -/

def Spells (bytes : Nat → Nat) (hextets : List Nat) : Prop :=
  ∀ k hextet, hextets[k]? = some hextet →
    bytes (k * 2) = hextet / 256 ∧ bytes (k * 2 + 1) = hextet % 256

theorem Spells.addressBytes {bytes : Nat → Nat} {hextets : List Nat}
    (spells : Spells bytes hextets) :
    (List.range (2 * hextets.length)).map bytes = addressBytes hextets := by
  induction hextets generalizing bytes with
  | nil => rfl
  | cons hextet later ih =>
    obtain ⟨high, low⟩ := spells 0 hextet rfl
    have rest := @ih (fun i => bytes (i + 2)) fun k next found => by
      have moved := spells (k + 1) next found
      rwa [Nat.add_mul] at moved
    rw [Qdf.addressBytes, List.flatMap_cons, ← Qdf.addressBytes, ← rest, List.length_cons,
      Nat.mul_add, List.range_succ_eq_map, List.range_succ_eq_map]
    simp only [List.map_cons, List.map_map, List.cons_append, List.nil_append]
    exact congrArg₂ _ high (congrArg₂ _ low rfl)

theorem Spells.push {hextets : List Nat} (spells : Spells st.bytes hextets)
    (count : st.found = hextets.length) (hextet : Nat) :
    Spells (st.push hextet).bytes (hextets ++ [hextet]) := by
  intro k value found
  simp only [Ipv6State.push, update_apply]
  obtain old | rest := Nat.lt_or_ge k hextets.length
  · rw [List.getElem?_append_left old] at found
    rw [if_neg (by omega), if_neg (by omega), if_neg (by omega), if_neg (by omega)]
    exact spells k value found
  · rw [List.getElem?_append_right rest, List.getElem?_singleton,
      Option.ite_none_right_eq_some] at found
    obtain ⟨last, same⟩ := found
    obtain rfl := Option.some.inj same
    obtain rfl : k = st.found := by omega
    simp

theorem Spells.pushAll {hextets : List Nat} (spells : Spells st.bytes hextets)
    (count : st.found = hextets.length) (groups : List Group) :
    Spells (st.pushAll groups).bytes (hextets ++ groups.map groupValue) := by
  induction groups generalizing st hextets with
  | nil => simpa using spells
  | cons group groups ih =>
    rw [Ipv6State.pushAll_cons, List.map_cons, List.append_cons]
    exact ih (spells.push count _) (by simp [Ipv6State.push, count])

theorem Spells.zeroComp {bytes : Nat → Nat} {before after : List Nat}
    (spells : Spells bytes (before ++ after)) :
    Spells (applyZeroComp bytes (before.length + after.length) before.length)
      (before ++ List.replicate (8 - (before.length + after.length)) 0 ++ after) := by
  intro k hextet found
  generalize zeros : 8 - (before.length + after.length) = missing at found
  simp only [applyZeroComp, zeros]
  rw [List.append_assoc] at found
  obtain early | late := Nat.lt_or_ge k before.length
  · rw [List.getElem?_append_left early] at found
    rw [if_neg (by omega), if_neg (by omega), if_neg (by omega), if_neg (by omega)]
    exact spells k hextet (by rw [List.getElem?_append_left early, found])
  rw [List.getElem?_append_right late] at found
  obtain middle | last := Nat.lt_or_ge (k - before.length) missing
  · rw [List.getElem?_append_left (by simpa using middle), List.getElem?_replicate_of_lt middle]
      at found
    obtain rfl := Option.some.inj found
    rw [if_pos (by omega), if_pos (by omega)]
    exact ⟨rfl, rfl⟩
  · rw [List.getElem?_append_right (by simpa using last), List.length_replicate] at found
    have inside := (List.getElem?_eq_some_iff.mp found).1
    have moved := spells (k - missing) hextet (by
      rw [List.getElem?_append_right (by omega), ← found]
      exact congrArg _ (by omega))
    rw [if_neg (by omega), if_pos (by omega), if_neg (by omega), if_pos (by omega)]
    rwa [Nat.sub_mul, ← Nat.sub_add_comm (by omega)] at moved

/-! ## The whole parse -/

theorem leadingZeroComp_eq_some {zeroComp : Option Nat} :
    leadingZeroComp str = some (zeroComp, rest) ↔
      (zeroComp = none ∧ rest = str ∧ ∀ tail, str ≠ ':' :: tail) ∨
        (zeroComp = some 0 ∧ str = ':' :: ':' :: rest) := by
  unfold leadingZeroComp
  cases colon : consumeChar ':' str with
  | none =>
    have plain := consumeChar_eq_none.mp colon
    simp only [Option.some.injEq, Prod.mk.injEq]
    constructor
    · rintro ⟨rfl, rfl⟩
      exact .inl ⟨rfl, rfl, plain⟩
    · rintro (⟨rfl, rfl, -⟩ | ⟨-, rfl⟩)
      · exact ⟨rfl, rfl⟩
      · exact absurd rfl (plain _)
  | some later =>
    obtain rfl := consumeChar_eq_some.mp colon
    simp only [Option.map_eq_some_iff, consumeChar_eq_some, Prod.mk.injEq, List.cons.injEq, true_and]
    constructor
    · rintro ⟨_, rfl, rfl, rfl⟩
      exact .inr ⟨rfl, rfl⟩
    · rintro (⟨-, -, plain⟩ | ⟨rfl, rfl⟩)
      · exact absurd rfl (plain _)
      · exact ⟨rest, rfl, rfl, rfl⟩

def startAt (addr : Nat → Nat) (zeroComp : Option Nat) : Ipv6State := ⟨addr, zeroComp, 0⟩

def Runs (addr : Nat → Nat) (str : List Char) (st : Ipv6State) (rest : List Char) : Prop :=
  ∃ zeroComp inner, leadingZeroComp (leftTrim str) = some (zeroComp, inner) ∧
    ipv6Loop 8 (startAt addr zeroComp) inner = some (st, rest)

theorem Runs.unique {addr : Nat → Nat} {rest' : List Char} (runs : Runs addr str st rest)
    (other : Runs addr str st' rest') : st = st' ∧ rest = rest' := by
  obtain ⟨_, _, start, ran⟩ := runs
  obtain ⟨_, _, start', ran'⟩ := other
  obtain ⟨rfl, rfl⟩ := Prod.mk.inj (Option.some.inj (start.symm.trans start'))
  exact Prod.mk.inj (Option.some.inj (ran.symm.trans ran'))

theorem ipv6Parse_eq_some {addr : Nat → Nat} {out : List Nat} :
    ipv6Parse addr str = some out ↔ ∃ st rest, Runs addr str st rest ∧ White rest ∧
      st.finish.map (fun bytes => (List.range 16).map bytes) = some out := by
  simp only [ipv6Parse, Option.bind_eq_bind, Option.bind_eq_some_iff, Option.ite_none_left_eq_some,
    ne_eq, not_not, leftTrim_eq_nil, Prod.exists, Runs, startAt]
  grind

theorem finish_full (addr : Nat → Nat) (eight : groups.length = 8) :
    ((startAt addr none).pushAll groups).finish.map (fun bytes => (List.range 16).map bytes) =
      some (addressBytes (groups.map groupValue)) := by
  have spells : Spells ((startAt addr none).pushAll groups).bytes ([] ++ groups.map groupValue) :=
    Spells.pushAll (by simp [Spells]) rfl groups
  have bytes := spells.addressBytes
  rw [List.nil_append, List.length_map, eight] at bytes
  simp [Ipv6State.finish, startAt, eight, ← bytes]

theorem finish_compressed (addr : Nat → Nat) {before after : List Group}
    (fewer : before.length + after.length < 8) :
    (((startAt addr none).pushAll before).compress.pushAll after).finish.map
        (fun bytes => (List.range 16).map bytes) =
      some (addressBytes (before.map groupValue ++
        List.replicate (8 - (before.length + after.length)) 0 ++ after.map groupValue)) := by
  have first : Spells ((startAt addr none).pushAll before).compress.bytes
      ([] ++ before.map groupValue) := Spells.pushAll (by simp [Spells]) rfl before
  have spells := first.pushAll (by simp [Ipv6State.compress, startAt]) after
  rw [List.nil_append] at spells
  have bytes := spells.zeroComp.addressBytes
  rw [List.length_append, List.length_append, List.length_replicate, List.length_map,
    List.length_map, show 2 * (before.length + (8 - (before.length + after.length)) +
      after.length) = 16 by omega] at bytes
  have found : (((startAt addr none).pushAll before).compress.pushAll after).found =
      before.length + after.length := by simp [Ipv6State.compress, startAt]
  have zeroComp : (((startAt addr none).pushAll before).compress.pushAll after).zeroComp =
      some before.length := by simp [Ipv6State.compress, startAt]
  rw [Ipv6State.finish, found, if_pos fewer, zeroComp]
  exact congrArg some bytes

theorem ipv6Parse_sound {addr : Nat → Nat} {out : List Nat}
    (parsed : ipv6Parse addr str = some out) : Ipv6Address str out ∨ TrailingColon str := by
  obtain ⟨st, rest, ⟨zeroComp, inner, start, ran⟩, white, finished⟩ := ipv6Parse_eq_some.mp parsed
  obtain ⟨before, whiteBefore, trimmed⟩ := leftTrim_split str
  obtain ⟨bytes, finish, -⟩ := Option.map_eq_some_iff.mp finished
  have around {text : List Char} (shape : leftTrim str = text ++ rest) : Padded str text :=
    ⟨before, rest, whiteBefore, white, by rw [← shape]; exact trimmed⟩
  have answer (before after : List Group) (valid : ∀ group ∈ before ++ after, IsGroup group)
      (state : st = ((startAt addr none).pushAll before).compress.pushAll after)
      (shape : leftTrim str = joined before ++ ':' :: ':' :: (joined after ++ rest)) :
      Ipv6Address str out := by
    have fewer : before.length + after.length < 8 := by
      by_contra many
      rw [state] at finish
      simp [Ipv6State.finish, Ipv6State.compress, startAt, many] at finish
    rw [state, finish_compressed addr fewer] at finished
    obtain rfl := Option.some.inj finished
    exact ⟨_, around (by simp [shape]), .compressed before after valid fewer⟩
  obtain ⟨rfl, rfl, -⟩ | ⟨rfl, shape⟩ := leadingZeroComp_eq_some.mp start
  · obtain ⟨groups, valid, eight, rfl, shape | shape⟩ | ⟨before, after, -, valid, state, shape⟩ :=
      ipv6Loop_sound ran finish rfl rfl (by decide)
    · rw [finish_full addr eight] at finished
      obtain rfl := Option.some.inj finished
      exact .inl ⟨_, around shape, .full groups valid eight⟩
    · exact .inr ⟨groups, valid, eight, around (by simp [shape])⟩
    · exact .inl (answer before after valid state shape)
  · obtain ⟨after, valid, state, text, -⟩ := ipv6Loop_sound_after ran finish rfl le_rfl rfl
    exact .inl (answer [] after valid state (by rw [shape, text]; rfl))

theorem black_of_digit {c : Char} (digit : (hexNibble c).isSome) : ¬ isSpace c :=
  fun space => by simp [hexNibble_space space] at digit

theorem leftTrim_groups {before : List Char} (white : White before) (some : groups ≠ [])
    (valid : ∀ group ∈ groups, IsGroup group) (rest : List Char) :
    leftTrim (before ++ (joined groups ++ rest)) = joined groups ++ rest := by
  obtain ⟨c, tail, shape, digit⟩ := joined_black some valid
  refine leftTrim_append white ?_
  rw [shape]
  rintro _ ⟨⟩
  exact black_of_digit digit

theorem runs_groups (addr : Nat → Nat) (some_ : groups ≠ [])
    (valid : ∀ group ∈ groups, IsGroup group) {before inner : List Char} (white : White before)
    (ran : ipv6Loop 8 (startAt addr none) (joined groups ++ inner) = some (st, rest)) :
    Runs addr (before ++ (joined groups ++ inner)) st rest := by
  refine ⟨none, joined groups ++ inner, ?_, ran⟩
  rw [leftTrim_groups white some_ valid]
  exact leadingZeroComp_eq_some.mpr (.inl ⟨rfl, rfl, joined_ne_colon some_ valid inner⟩)

theorem runs_compressed (addr : Nat → Nat) {left right : List Group}
    (valid : ∀ group ∈ left ++ right, IsGroup group) (fewer : left.length + right.length < 8)
    {before after : List Char} (white : White before) (whiteAfter : White after) :
    Runs addr (before ++ (joined left ++ ':' :: ':' :: joined right ++ after))
      (((startAt addr none).pushAll left).compress.pushAll right) after := by
  obtain ⟨validLeft, validRight⟩ := List.forall_mem_append.mp valid
  have tail (left : Nat) (st : Ipv6State) (fits : right.length < left)
      (here : some st.found = st.zeroComp) :
      ipv6Loop left st (joined right ++ after) = some (st.pushAll right, after) :=
    ipv6Loop_groups validRight fits.le (fun _ => ⟨Nat.zero_lt_of_lt fits, here⟩) whiteAfter
  by_cases leading : left = []
  · subst leading
    refine ⟨some 0, joined right ++ after, ?_, tail 8 _ (by simpa using fewer) rfl⟩
    rw [joined_nil, List.nil_append, List.cons_append, List.cons_append,
      leftTrim_append white (by rintro _ ⟨⟩; decide)]
    exact leadingZeroComp_eq_some.mpr (.inr ⟨rfl, rfl⟩)
  · rw [List.append_assoc]
    refine runs_groups addr leading validLeft white ?_
    obtain ⟨room, eight⟩ := Nat.exists_eq_add_of_le (show left.length ≤ 8 by omega)
    rw [eight]
    refine (ipv6Loop_compressed validLeft leading rfl room _).trans (tail room _ (by omega) rfl)

theorem joined_last (some : groups ≠ []) (valid : ∀ group ∈ groups, IsGroup group) :
    ∃ digit ∈ (joined groups).getLast?, (hexNibble digit).isSome := by
  induction groups with
  | nil => exact absurd rfl some
  | cons group later ih =>
    obtain ⟨headValid, valid⟩ := List.forall_mem_cons.mp valid
    by_cases last : later = []
    · obtain ⟨some, -, digits⟩ := headValid
      refine ⟨group.getLast some, ?_, digits _ (List.getLast_mem some)⟩
      rw [last, joined_singleton]
      exact List.getLast?_eq_some_getLast some
    · obtain ⟨digit, found, hex⟩ := ih last valid
      refine ⟨digit, ?_, hex⟩
      rw [joined_cons group last, List.getLast?_append, List.getLast?_cons, found]
      rfl

theorem groups_ne_nil (eight : groups.length = 8) : groups ≠ [] := by
  rintro rfl
  exact absurd eight (by decide)

theorem runs_full (addr : Nat → Nat) (valid : ∀ group ∈ groups, IsGroup group)
    (eight : groups.length = 8) {before after : List Char} (white : White before)
    (whiteAfter : White after) :
    Runs addr (before ++ (joined groups ++ after)) ((startAt addr none).pushAll groups) after :=
  runs_groups addr (groups_ne_nil eight) valid white
    (ipv6Loop_groups valid eight.le (fun none => absurd none (groups_ne_nil eight)) whiteAfter)

theorem runs_trailing (addr : Nat → Nat) (valid : ∀ group ∈ groups, IsGroup group)
    (eight : groups.length = 8) {before after : List Char} (white : White before)
    (whiteAfter : White after) :
    Runs addr (before ++ (joined groups ++ ':' :: after)) ((startAt addr none).pushAll groups)
      after :=
  runs_groups addr (groups_ne_nil eight) valid white
    (eight ▸ ipv6Loop_trailing valid (groups_ne_nil eight) whiteAfter)

theorem ipv6Parse_complete (addr : Nat → Nat) {out : List Nat} (address : Ipv6Address str out) :
    ipv6Parse addr str = some out := by
  obtain ⟨text, ⟨before, after, white, whiteAfter, rfl⟩, spelled⟩ := address
  refine ipv6Parse_eq_some.mpr ?_
  cases spelled with
  | full groups valid eight =>
    exact ⟨_, after, runs_full addr valid eight white whiteAfter, whiteAfter,
      finish_full addr eight⟩
  | compressed left right valid fewer =>
    exact ⟨_, after, runs_compressed addr valid fewer white whiteAfter, whiteAfter,
      finish_compressed addr fewer⟩

theorem TrailingColon.not_address {out : List Nat} (colon : TrailingColon str) :
    ¬ Ipv6Address str out := by
  obtain ⟨groups, valid, eight, before, after, white, whiteAfter, shape⟩ := colon
  rw [List.append_assoc] at shape
  have runs := runs_trailing (fun _ => 0) valid eight white whiteAfter
  have trimmed := leftTrim_groups white (groups_ne_nil eight) valid (':' :: after)
  rintro ⟨text, ⟨before', after', white', whiteAfter', shape'⟩, spelled⟩
  have same := shape.symm.trans shape'
  rw [List.singleton_append] at same
  cases spelled with
  | full groups' valid' eight' =>
    obtain ⟨-, rest⟩ := runs.unique (same ▸ runs_full _ valid' eight' white' whiteAfter')
    rw [same, leftTrim_groups white' (groups_ne_nil eight') valid', ← rest, List.append_cons,
      List.append_cancel_right_eq] at trimmed
    obtain ⟨digit, last, hex⟩ := joined_last (groups_ne_nil eight') valid'
    rw [trimmed, List.getLast?_append] at last
    obtain rfl := Option.some.inj last
    exact absurd hex (by decide)
  | compressed left right valid' fewer =>
    obtain ⟨state, -⟩ := runs.unique (same ▸ runs_compressed _ valid' fewer white' whiteAfter')
    have compressed := congrArg Ipv6State.zeroComp state
    simp [Ipv6State.compress, startAt] at compressed

/-- The parse is right exactly when no single colon is behind an eighth group. -/
theorem ipv6Parse_iff (str : List Char) :
    (∀ addr out, ipv6Parse addr str = some out ↔ Ipv6Address str out) ↔ ¬ TrailingColon str := by
  constructor
  · intro right colon
    obtain ⟨groups, valid, eight, before, after, white, whiteAfter, shape⟩ := id colon
    rw [List.append_assoc] at shape
    have runs := runs_trailing (fun _ => 0) valid eight white whiteAfter
    exact colon.not_address ((right _ _).mp (ipv6Parse_eq_some.mpr
      ⟨_, after, shape ▸ runs, whiteAfter, finish_full _ eight⟩))
  · intro plain addr out
    exact ⟨fun parsed => (ipv6Parse_sound parsed).resolve_right plain, ipv6Parse_complete addr⟩

end

/-- The address is taken with the colon behind it. -/
theorem ipv6Parse_trailing :
    ¬ ∀ addr out, ipv6Parse addr "1:2:3:4:5:6:7:8:".toList = some out ↔
      Ipv6Address "1:2:3:4:5:6:7:8:".toList out := by
  intro right
  have colon : TrailingColon "1:2:3:4:5:6:7:8:".toList :=
    ⟨[['1'], ['2'], ['3'], ['4'], ['5'], ['6'], ['7'], ['8']],
      by simp [IsGroup, hexNibble], rfl, [], [], by simp [White], by simp [White], by decide⟩
  exact colon.not_address ((right (fun _ => 0) [0, 1, 0, 2, 0, 3, 0, 4, 0, 5, 0, 6, 0, 7, 0, 8]).mp
    (by decide))

end VendorModules.Qdf
