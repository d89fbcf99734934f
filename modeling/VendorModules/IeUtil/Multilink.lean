import VendorModules.IeUtil.Capability

namespace VendorModules.IeUtil

/-! How a Multi-Link element is looked for in a buffer. A pointer into the buffer is what is in it
from there on. -/

inductive MlieStatus
  | nullValue
  | inval
  | proto

abbrev Reads (α : Type) := Option (Except MlieStatus α)

def Reads.andThen {α β : Type} (r : Reads α) (f : α → Reads β) : Reads β :=
  r.bind fun
    | .error status => some (.error status)
    | .ok a => f a

/-- `util_find_extn_eid`. The first argument bounds the number of rounds. -/
def findExtnEid (eid extnEid : BitVec 8) : Nat → Bytes → Option (Option Bytes)
  | 0, _ => none
  | fuel + 1, frame =>
    if frame.length ≤ 2 then some none
    else
      (frame[1]?).bind fun tagLen =>
        if frame.length < tagLen.toNat + 2 then some none
        else
          (frame[0]?).bind fun id =>
            let next := findExtnEid eid extnEid fuel (frame.drop (tagLen.toNat + 2))
            if tagLen.toNat ≠ 0 ∧ id = eid then
              (frame[2]?).bind fun extn => if extn = extnEid then some (some frame) else next
            else next

/-- `util_get_successorfrag` -/
def getSuccessorfrag (currie : Bytes) : Option (Option Bytes) :=
  if currie.length < 2 then some none
  else
    (currie[1]?).bind fun tagLen =>
      if currie.length < 2 + tagLen.toNat + 2 then some none
      else
        let nextie := currie.drop (tagLen.toNat + 2)
        (nextie[1]?).bind fun nextLen =>
          if nextie.length < 2 + nextLen.toNat then some none
          else (nextie[0]?).map fun id => if id ≠ 242 then none else some nextie

/-- The loop of `util_find_mlie` over the fragments. -/
def fragLoop : Nat → Bytes → Nat → Reads Nat
  | 0, _, _ => none
  | fuel + 1, currie, ieseqlen =>
    (getSuccessorfrag currie).bind fun
      | none => some (.ok ieseqlen)
      | some successorfrag =>
        (currie[1]?).bind fun tagLen =>
          if tagLen.toNat ≠ 255 then some (.error .proto)
          else
            (successorfrag[1]?).bind fun fragLen =>
              if fragLen.toNat = 0 then some (.error .proto)
              else fragLoop fuel successorfrag (ieseqlen + (2 + fragLen.toNat))

def findMlie (buf : Bytes) : Reads (Option (Bytes × Nat)) :=
  if buf = [] then some (.error .nullValue)
  else
    (findExtnEid 255 107 (buf.length + 1) buf).bind fun
      | none => some (.ok none)
      | some ieseq =>
        if ieseq.length < 2 then some (.error .inval)
        else
          (ieseq[1]?).bind fun tagLen =>
            if 2 + tagLen.toNat < 5 then some (.error .proto)
            else if ieseq.length < 2 + tagLen.toNat then some (.error .inval)
            else
              Reads.andThen (fragLoop (buf.length + 1) ieseq (2 + tagLen.toNat)) fun ieseqlen =>
                some (.ok (some (ieseq, ieseqlen)))

def readMlcontrol (mlieseq : Bytes) (mlieseqlen : Nat) : Reads Nat :=
  if mlieseqlen < 5 then some (.error .inval)
  else
    (mlieseq[0]?).bind fun id => (mlieseq[2]?).bind fun extn =>
      if id ≠ 255 ∨ extn ≠ 107 then some (.error .inval)
      else
        (mlieseq[3]?).bind fun low => (mlieseq[4]?).map fun high =>
          .ok (low.toNat + 256 * high.toNat)

def getMlieVariant (mlieseq : Bytes) (mlieseqlen : Nat) : Reads Nat :=
  (readMlcontrol mlieseq mlieseqlen).andThen fun mlcontrol =>
    if 5 ≤ mlcontrol % 8 then some (.error .proto) else some (.ok (mlcontrol % 8))

/-- The loop of `util_find_mlie_by_variant`. -/
def variantLoop (variant : Int) : Nat → Bytes → Reads (Option (Bytes × Nat))
  | 0, _ => none
  | fuel + 1, rest =>
    if rest = [] then some (.error .inval)
    else
      (findMlie rest).andThen fun
        | none => some (.ok none)
        | some (ieseq, ieseqlen) =>
          (getMlieVariant ieseq ieseqlen).andThen fun mlVariant =>
            if (mlVariant : Int) = variant then some (.ok (some (ieseq, ieseqlen)))
            else variantLoop variant fuel (ieseq.drop ieseqlen)

def findMlieByVariant (buf : Bytes) (variant : Int) : Reads (Option (Bytes × Nat)) :=
  if buf = [] then some (.error .nullValue)
  else if 5 ≤ variant then some (.error .proto)
  else variantLoop variant (buf.length + 1) buf

def getBvmlieMldmacaddr (mlieseq : Bytes) (mlieseqlen : Nat) : Reads Bytes :=
  (readMlcontrol mlieseq mlieseqlen).andThen fun mlcontrol =>
    if mlcontrol % 8 ≠ 0 then some (.error .inval)
    else if mlieseqlen < 5 + 1 + 6 then some (.error .proto)
    else
      (mlieseq[5]?).bind fun commoninfoLen =>
        if commoninfoLen.toNat < 1 + 6 then some (.error .proto)
        else if mlieseq.length < 5 + 1 + 6 then none
        else some (.ok ((mlieseq.drop (5 + 1)).take 6))

/-- The loop of `util_find_mlie_for_ml_probe_resp_by_mldaddr`, and what is behind it. -/
def mldaddrLoop (mldAddr : Bytes) : Nat → Bytes → Reads (Option (Bytes × Nat))
  | 0, _ => none
  | fuel + 1, rest =>
    if rest = [] then some (.ok none)
    else
      (findMlieByVariant rest 0).andThen fun
        | none => some (.ok none)
        | some (ieseq, ieseqlen) =>
          (getBvmlieMldmacaddr ieseq ieseqlen).andThen fun ieseqMldaddr =>
            if ieseqMldaddr = mldAddr then
              if ieseq.length < 2 then some (.error .inval)
              else if ieseqlen < 5 then some (.error .proto)
              else if ieseq.length < ieseqlen then some (.error .inval)
              else some (.ok (some (ieseq, ieseqlen)))
            else mldaddrLoop mldAddr fuel (ieseq.drop ieseqlen)

def findMlieByMldaddr (buf mldAddr : Bytes) : Reads (Option (Bytes × Nat)) :=
  if buf = [] then some (.error .nullValue) else mldaddrLoop mldAddr (buf.length + 1) buf

/-! ## Element sequences -/

structure Ie where
  id : BitVec 8
  body : Bytes
  small : body.length < 256

namespace Ie

def encode (e : Ie) : Bytes := e.id :: BitVec.ofNat 8 e.body.length :: e.body

def size (e : Ie) : Nat := 2 + e.body.length

def isMl (e : Ie) : Bool := e.id = 255 ∧ e.body.head? = some 107

def isFrag (e : Ie) : Bool := e.id = 242

def variant (e : Ie) : Nat := (e.body.getD 1 0).toNat % 8

def mldAddr (e : Ie) : Bytes := (e.body.drop 4).take 6

def Chained (e : Ie) : List Ie → Prop
  | [] => True
  | f :: es => f.isFrag → e.body.length = 255 ∧ f.body.length ≠ 0 ∧ f.Chained es

structure Sound (e : Ie) (es : List Ie) : Prop where
  control : 3 ≤ e.body.length
  chained : e.Chained es
  type : e.variant < 5

def HasAddr (e : Ie) : Prop := 10 ≤ e.body.length ∧ 7 ≤ (e.body.getD 3 0).toNat

end Ie

def encodeAll (es : List Ie) : Bytes := es.flatMap Ie.encode

def sizes (es : List Ie) : Nat := (es.map Ie.size).sum

def firstMlie (kind : Ie → Bool) : List Ie → Option (List Ie × Nat)
  | [] => none
  | e :: es =>
    if e.isMl && kind e then some (e :: es, e.size + sizes (es.takeWhile Ie.isFrag))
    else firstMlie kind es

def Clear (kind : Ie → Bool) (bad : Ie → List Ie → Prop) : List Ie → Prop
  | [] => True
  | e :: es => if e.isMl then ¬ bad e es ∧ (kind e = false → Clear kind bad es) else Clear kind bad es

def ofVariant (variant : Int) (e : Ie) : Bool := (e.variant : Int) = variant

def BadForVariant (variant : Int) (tail : Bytes) (e : Ie) (es : List Ie) : Prop :=
  ¬ e.Sound es ∨
    (ofVariant variant e = false ∧ encodeAll (es.dropWhile Ie.isFrag) ++ tail = [])

def ofMldAddr (mldAddr : Bytes) (e : Ie) : Bool := ofVariant 0 e ∧ e.mldAddr = mldAddr

/-- The element is not sound, a Basic one without an address, or another one whose
fragments end the buffer. -/
def BadForMldAddr (tail : Bytes) (e : Ie) (es : List Ie) : Prop :=
  BadForVariant 0 tail e es ∨ (ofVariant 0 e ∧ ¬ e.HasAddr)

def Stops (tail : Bytes) : Prop :=
  ∀ id len after, tail = id :: len :: after → after.length < len.toNat

theorem encodeAll_split (bytes : Bytes) : ∃ es tail, bytes = encodeAll es ++ tail ∧ Stops tail := by
  induction size : bytes.length using Nat.strongRecOn generalizing bytes with
  | ind size ih =>
    by_cases stops : Stops bytes
    · exact ⟨[], bytes, rfl, stops⟩
    · simp only [Stops, not_forall, Nat.not_lt] at stops
      obtain ⟨id, len, after, rfl, fits⟩ := stops
      obtain ⟨es, tail, shape, rest⟩ := ih (after.drop len.toNat).length (by
        rw [List.length_drop, ← size]
        simp only [List.length_cons]
        omega) _ rfl
      have body : (after.take len.toNat).length = len.toNat := List.length_take_of_le fits
      refine ⟨⟨id, after.take len.toNat, Nat.lt_of_le_of_lt (Nat.le_of_eq body) len.isLt⟩ :: es, tail, ?_, rest⟩
      simp only [encodeAll, List.flatMap_cons, Ie.encode, body, BitVec.ofNat_toNat,
        BitVec.setWidth_eq, List.cons_append, List.append_assoc]
      rw [← encodeAll, ← shape, List.take_append_drop]

section

variable {e : Ie} {es : List Ie} {rest tail : Bytes}

theorem Ie.toNat_len (e : Ie) : (BitVec.ofNat 8 e.body.length).toNat = e.body.length := by
  rw [BitVec.toNat_ofNat]
  exact Nat.mod_eq_of_lt e.small

theorem Ie.length_encode (e : Ie) (rest : Bytes) : (e.encode ++ rest).length = e.size + rest.length := by
  simp only [Ie.encode, Ie.size, List.cons_append, List.length_cons, List.length_append]
  omega

theorem Ie.drop_encode (e : Ie) (rest : Bytes) : (e.encode ++ rest).drop (e.body.length + 2) = rest := by
  simp [Ie.encode]

theorem Ie.body_of_isMl (ml : e.isMl) : ∃ more, e.body = 107 :: more := by
  simp only [Ie.isMl, Bool.decide_and, Bool.and_eq_true, decide_eq_true_eq] at ml
  cases shape : e.body with
  | nil => simp [shape] at ml
  | cons extn more => exact ⟨more, by simpa [shape] using ml.2⟩

theorem encodeAll_cons (e : Ie) (es : List Ie) (tail : Bytes) :
    encodeAll (e :: es) ++ tail = e.encode ++ (encodeAll es ++ tail) := by
  simp [encodeAll]

theorem findExtnEid_eq (stops : Stops tail) {fuel : Nat}
    (enough : (encodeAll es ++ tail).length < fuel) :
    findExtnEid 255 107 fuel (encodeAll es ++ tail) =
      some (match es.dropWhile fun e => !e.isMl with
        | [] => none
        | e :: es => some (encodeAll (e :: es) ++ tail)) := by
  induction es generalizing fuel with
  | nil =>
    obtain ⟨fuel, rfl⟩ := Nat.exists_eq_succ_of_ne_zero (Nat.ne_zero_of_lt enough)
    rw [findExtnEid]
    match tail, stops with
    | [], _ | [_], _ | [_, _], _ => rfl
    | id :: len :: c :: after, stops =>
      have short := stops id len (c :: after) rfl
      rw [List.length_cons] at short
      simp [encodeAll, short]
  | cons e es ih =>
    obtain ⟨fuel, rfl⟩ := Nat.exists_eq_succ_of_ne_zero (Nat.ne_zero_of_lt enough)
    rw [encodeAll_cons] at enough ⊢
    rw [e.length_encode, Ie.size] at enough
    have next := @ih fuel (by omega)
    rw [findExtnEid, e.length_encode, Ie.size]
    by_cases short : e.size + (encodeAll es ++ tail).length ≤ 2
    · -- an empty element at the end of the buffer
      rw [Ie.size] at short
      have empty : e.body = [] := List.length_eq_zero_iff.1 (by omega)
      have last : encodeAll es ++ tail = [] := List.length_eq_zero_iff.1 (by omega)
      have none : es = [] := by
        cases es with
        | nil => rfl
        | cons e' es => simp [encodeAll, Ie.encode] at last
      rw [if_pos (by omega), none]
      simp [Ie.isMl, empty]
    · rw [Ie.size] at short
      rw [if_neg (by omega)]
      have fits : ¬ 2 + e.body.length + (encodeAll es ++ tail).length < e.body.length + 2 := by omega
      have front : (e.encode ++ (encodeAll es ++ tail))[1]? =
          some (BitVec.ofNat 8 e.body.length) := rfl
      have first : (e.encode ++ (encodeAll es ++ tail))[0]? = some e.id := rfl
      rw [front, first]
      simp only [Option.bind_some, e.toNat_len, if_neg fits, e.drop_encode, next]
      by_cases ml : e.isMl
      · obtain ⟨more, body⟩ := Ie.body_of_isMl ml
        have id : e.id = 255 := by
          simp only [Ie.isMl, Bool.decide_and, Bool.and_eq_true, decide_eq_true_eq] at ml
          exact ml.1
        have extn : (e.encode ++ (encodeAll es ++ tail))[2]? = some 107 := by
          simp [Ie.encode, body]
        rw [if_pos ⟨by simp [body], id⟩, extn, Option.bind_some, if_pos rfl,
          List.dropWhile_cons_of_neg (by simp [ml]), ← encodeAll_cons]
      · rw [List.dropWhile_cons_of_pos (by simp [ml])]
        split
        · next named =>
          obtain ⟨some', id⟩ := named
          obtain ⟨extn, more, body⟩ := List.exists_cons_of_length_pos (Nat.pos_of_ne_zero some')
          have here : (e.encode ++ (encodeAll es ++ tail))[2]? = some extn := by
            simp [Ie.encode, body]
          have other : extn ≠ 107 := by
            rintro rfl
            exact ml (by simp [Ie.isMl, id, body])
          rw [here, Option.bind_some, if_neg other]
        · rfl

theorem getSuccessorfrag_eq (e : Ie) (es : List Ie) (stops : Stops tail) :
    getSuccessorfrag (encodeAll (e :: es) ++ tail) = some (match es with
      | [] => none
      | f :: es => if f.isFrag then some (encodeAll (f :: es) ++ tail) else none) := by
  rw [encodeAll_cons, getSuccessorfrag, e.length_encode, Ie.size, if_neg (by omega)]
  have front : (e.encode ++ (encodeAll es ++ tail))[1]? =
      some (BitVec.ofNat 8 e.body.length) := rfl
  rw [front]
  simp only [Option.bind_some, e.toNat_len, e.drop_encode]
  cases es with
  | nil =>
    simp only [encodeAll, List.flatMap_nil, List.nil_append]
    match tail, stops with
    | [], _ | [_], _ => rw [if_pos (by simp only [List.length_cons, List.length_nil]; omega)]
    | id :: len :: after, stops =>
      have short := stops id len after rfl
      simp only [List.length_cons]
      rw [if_neg (by omega)]
      simp only [List.getElem?_cons_succ, List.getElem?_cons_zero, Option.bind_some]
      rw [if_pos (by omega)]
  | cons f es =>
    simp only [encodeAll_cons, f.length_encode, Ie.size]
    have next : (f.encode ++ (encodeAll es ++ tail))[1]? =
        some (BitVec.ofNat 8 f.body.length) := rfl
    have first : (f.encode ++ (encodeAll es ++ tail))[0]? = some f.id := rfl
    rw [if_neg (by omega), next, first]
    simp only [Option.bind_some, f.toNat_len, Option.map_some, Ie.isFrag, decide_eq_true_eq]
    rw [if_neg (by omega), ite_not]

theorem fragLoop_eq (stops : Stops tail) {fuel n : Nat} (enough : es.length < fuel) :
    (e.Chained es → fragLoop fuel (encodeAll (e :: es) ++ tail) n =
      some (.ok (n + sizes (es.takeWhile Ie.isFrag)))) ∧
    (¬ e.Chained es → fragLoop fuel (encodeAll (e :: es) ++ tail) n = some (.error .proto)) := by
  induction es generalizing e fuel n with
  | nil =>
    obtain ⟨fuel, rfl⟩ := Nat.exists_eq_succ_of_ne_zero (Nat.ne_zero_of_lt enough)
    rw [fragLoop, getSuccessorfrag_eq e [] stops]
    exact ⟨fun _ => rfl, fun broken => absurd trivial broken⟩
  | cons f es ih =>
    obtain ⟨fuel, rfl⟩ := Nat.exists_eq_succ_of_ne_zero (Nat.ne_zero_of_lt enough)
    rw [fragLoop, getSuccessorfrag_eq e (f :: es) stops]
    by_cases frag : f.isFrag
    · have front : (encodeAll (e :: f :: es) ++ tail)[1]? =
          some (BitVec.ofNat 8 e.body.length) := rfl
      have next : (encodeAll (f :: es) ++ tail)[1]? = some (BitVec.ofNat 8 f.body.length) := rfl
      simp only [frag, if_true, Option.bind_some, front, next, e.toNat_len, f.toNat_len,
        Ie.Chained, forall_const]
      by_cases full : e.body.length = 255
      · by_cases empty : f.body.length = 0
        · simp [full, empty]
        · rw [if_neg (not_not.2 full), if_neg empty]
          have later := @ih f fuel (n + (2 + f.body.length)) (by simpa using enough)
          have sum : n + (2 + f.body.length) + sizes (es.takeWhile Ie.isFrag) =
              n + sizes ((f :: es).takeWhile Ie.isFrag) := by
            rw [List.takeWhile_cons_of_pos frag]
            simp only [sizes, List.map_cons, List.sum_cons, Ie.size]
            omega
          rw [sum] at later
          exact ⟨fun chained => later.1 chained.2.2,
            fun broken => later.2 fun chained => broken ⟨full, empty, chained⟩⟩
      · simp [full]
    · refine ⟨fun _ => ?_, fun broken => absurd (fun isFrag => absurd isFrag frag) broken⟩
      rw [List.takeWhile_cons_of_neg frag]
      simp [frag, sizes]

theorem length_le_encodeAll (es : List Ie) (tail : Bytes) :
    es.length ≤ (encodeAll es ++ tail).length := by
  induction es with
  | nil => exact Nat.zero_le _
  | cons e es ih =>
    rw [encodeAll_cons, e.length_encode, Ie.size, List.length_cons]
    omega

theorem findMlie_none (stops : Stops tail) (some_left : encodeAll es ++ tail ≠ [])
    (absent : es.dropWhile (fun e => !e.isMl) = []) :
    findMlie (encodeAll es ++ tail) = some (.ok none) := by
  rw [findMlie, if_neg some_left, findExtnEid_eq stops (Nat.lt_succ_self _), absent]
  rfl

theorem findMlie_some (stops : Stops tail) {after : List Ie}
    (first : es.dropWhile (fun e => !e.isMl) = e :: after) :
    (3 ≤ e.body.length ∧ e.Chained after → findMlie (encodeAll es ++ tail) =
      some (.ok (some (encodeAll (e :: after) ++ tail,
        e.size + sizes (after.takeWhile Ie.isFrag))))) ∧
    (¬(3 ≤ e.body.length ∧ e.Chained after) →
      ∃ status, findMlie (encodeAll es ++ tail) = some (.error status)) := by
  have some_left : encodeAll es ++ tail ≠ [] := by
    cases es with
    | nil => cases first
    | cons e es => simp [encodeAll, Ie.encode]
  have fewer : after.length < (encodeAll es ++ tail).length + 1 := by
    have suffix := (List.dropWhile_suffix (fun e : Ie => !e.isMl) (l := es)).length_le
    have bytes := length_le_encodeAll es tail
    rw [first, List.length_cons] at suffix
    omega
  have front : (encodeAll (e :: after) ++ tail)[1]? = some (BitVec.ofNat 8 e.body.length) := rfl
  have long : (encodeAll (e :: after) ++ tail).length = e.size + (encodeAll after ++ tail).length := by
    rw [encodeAll_cons, e.length_encode]
  rw [Ie.size] at long
  have frags := @fragLoop_eq e after tail stops _ (2 + e.body.length) fewer
  rw [findMlie, if_neg some_left, findExtnEid_eq stops (Nat.lt_succ_self _), first]
  simp only [Option.bind_some, front, e.toNat_len]
  rw [if_neg (by omega), if_neg (show ¬ _ < 2 + e.body.length by omega)]
  by_cases control : 3 ≤ e.body.length
  · rw [if_neg (by omega)]
    refine ⟨fun ⟨_, chained⟩ => ?_, fun broken => ⟨.proto, ?_⟩⟩
    · rw [frags.1 chained]
      rfl
    · rw [frags.2 fun chained => broken ⟨control, chained⟩]
      rfl
  · rw [if_pos (by omega)]
    exact ⟨fun ⟨enough, _⟩ => absurd enough control, fun _ => ⟨.proto, rfl⟩⟩

theorem readMlcontrol_eq (ml : e.isMl) (control : 3 ≤ e.body.length) {n : Nat} (long : 5 ≤ n) :
    ∃ mlcontrol, readMlcontrol (e.encode ++ rest) n = some (.ok mlcontrol) ∧
      mlcontrol % 8 = e.variant := by
  obtain ⟨more, body⟩ := Ie.body_of_isMl ml
  have id : e.id = 255 := by
    simp only [Ie.isMl, Bool.decide_and, Bool.and_eq_true, decide_eq_true_eq] at ml
    exact ml.1
  match more, body with
  | [], body | [_], body => simp [body] at control
  | low :: high :: more, body =>
    refine ⟨low.toNat + 256 * high.toNat, ?_, ?_⟩
    · simp [readMlcontrol, Nat.not_lt.2 long, Ie.encode, body, id]
    · simp only [Ie.variant, body, List.getD_cons_succ, List.getD_cons_zero]
      omega

theorem getMlieVariant_eq (ml : e.isMl) (control : 3 ≤ e.body.length) {n : Nat} (long : 5 ≤ n) :
    getMlieVariant (e.encode ++ rest) n =
      if 5 ≤ e.variant then some (.error .proto) else some (.ok e.variant) := by
  obtain ⟨mlcontrol, read, type⟩ := @readMlcontrol_eq e rest ml control n long
  rw [getMlieVariant, read, ← type]
  rfl

theorem length_encodeAll (es : List Ie) : (encodeAll es).length = sizes es := by
  induction es with
  | nil => rfl
  | cons e es ih =>
    have all := encodeAll_cons e es []
    rw [List.append_nil, List.append_nil] at all
    rw [all, e.length_encode, ih]
    simp [sizes]

theorem drop_sequence (e : Ie) (es : List Ie) (tail : Bytes) :
    (encodeAll (e :: es) ++ tail).drop (e.size + sizes (es.takeWhile Ie.isFrag)) =
      encodeAll (es.dropWhile Ie.isFrag) ++ tail := by
  have split : encodeAll (e :: es) ++ tail = encodeAll (e :: es.takeWhile Ie.isFrag) ++
      (encodeAll (es.dropWhile Ie.isFrag) ++ tail) := by
    rw [← List.append_assoc, encodeAll, encodeAll, encodeAll, ← List.flatMap_append,
      List.cons_append, List.takeWhile_append_dropWhile]
  have long : e.size + sizes (es.takeWhile Ie.isFrag) =
      (encodeAll (e :: es.takeWhile Ie.isFrag)).length := by
    rw [length_encodeAll]
    simp [sizes]
  rw [split, long, List.drop_left]

section Kind

variable {kind : Ie → Bool} {bad : Ie → List Ie → Prop}

theorem firstMlie_skip (es : List Ie) :
    firstMlie kind (es.dropWhile fun e => !e.isMl) = firstMlie kind es := by
  induction es with
  | nil => rfl
  | cons e es ih => cases ml : e.isMl <;> simp [firstMlie, ml, ih]

theorem clear_skip (es : List Ie) :
    Clear kind bad (es.dropWhile fun e => !e.isMl) ↔ Clear kind bad es := by
  induction es with
  | nil => rfl
  | cons e es ih => cases ml : e.isMl <;> simp [Clear, ml, ih]

theorem Ie.not_isMl_of_isFrag (frag : e.isFrag) : e.isMl = false := by
  simp only [Ie.isFrag, decide_eq_true_eq] at frag
  simp [Ie.isMl, frag]

theorem firstMlie_frags (es : List Ie) :
    firstMlie kind (es.dropWhile Ie.isFrag) = firstMlie kind es := by
  induction es with
  | nil => rfl
  | cons e es ih =>
    cases frag : e.isFrag with
    | false => simp [frag]
    | true => simp [frag, firstMlie, Ie.not_isMl_of_isFrag frag, ih]

theorem clear_frags (es : List Ie) :
    Clear kind bad (es.dropWhile Ie.isFrag) ↔ Clear kind bad es := by
  induction es with
  | nil => rfl
  | cons e es ih =>
    cases frag : e.isFrag with
    | false => simp [frag]
    | true => simp [frag, Clear, Ie.not_isMl_of_isFrag frag, ih]

end Kind

/-- What a search comes to: it finds the first of the kind if none up to it is bad, and fails if
one is. -/
def Searches (kind : Ie → Bool) (bad : Ie → List Ie → Prop) (es : List Ie) (tail : Bytes)
    (found : Reads (Option (Bytes × Nat))) : Prop :=
  ∃ r, found = some r ∧
    (Clear kind bad es →
      r = .ok ((firstMlie kind es).map fun (es, n) => (encodeAll es ++ tail, n))) ∧
    (¬ Clear kind bad es → ∃ status, r = .error status)

theorem sizes_suffix {es es' : List Ie} (suffix : es' <:+ es) : sizes es' ≤ sizes es := by
  obtain ⟨pre, rfl⟩ := suffix
  simp [sizes]

theorem encodeAll_eq_nil : encodeAll es ++ tail = [] ↔ es = [] ∧ tail = [] := by
  cases es <;> simp [encodeAll, Ie.encode]

theorem shorter {after : List Ie} (found : e :: after <:+ es) (tail : Bytes) :
    (encodeAll (after.dropWhile Ie.isFrag) ++ tail).length < (encodeAll es ++ tail).length := by
  have whole := sizes_suffix found
  have behind := sizes_suffix (List.dropWhile_suffix Ie.isFrag (l := after))
  simp only [sizes, List.map_cons, List.sum_cons, Ie.size] at whole behind
  simp only [List.length_append, length_encodeAll, sizes]
  omega

theorem variantLoop_spec (variant : Int) (stops : Stops tail) {fuel : Nat}
    (enough : (encodeAll es ++ tail).length < fuel) (some_left : encodeAll es ++ tail ≠ []) :
    Searches (ofVariant variant) (BadForVariant variant tail) es tail
      (variantLoop variant fuel (encodeAll es ++ tail)) := by
  induction fuel generalizing es with
  | zero => exact absurd enough (Nat.not_lt_zero _)
  | succ fuel ih =>
    rw [variantLoop, if_neg some_left]
    cases first : es.dropWhile fun e => !e.isMl with
    | nil =>
      rw [findMlie_none stops some_left first]
      refine ⟨_, rfl, ?_⟩
      rw [← firstMlie_skip, ← clear_skip, first]
      exact ⟨fun _ => rfl, fun broken => absurd trivial broken⟩
    | cons e after =>
      have ml : e.isMl := by
        have head := List.head_dropWhile_not (fun e : Ie => !e.isMl) (l := es) (by simp [first])
        simpa [first] using head
      have sequence := findMlie_some stops first
      simp only [Searches, ← firstMlie_skip es, ← clear_skip es, first]
      simp only [firstMlie, Clear, ml, if_true, Bool.true_and]
      by_cases ordered : 3 ≤ e.body.length ∧ e.Chained after
      swap
      · obtain ⟨status, failed⟩ := sequence.2 ordered
        rw [failed]
        refine ⟨_, rfl, fun clear => ?_, fun _ => ⟨status, rfl⟩⟩
        exact absurd (Or.inl fun sound => ordered ⟨sound.control, sound.chained⟩) clear.1
      rw [sequence.1 ordered]
      simp only [Reads.andThen, Option.bind_some]
      rw [encodeAll_cons, getMlieVariant_eq ml ordered.1 (by rw [Ie.size]; omega), ← encodeAll_cons]
      by_cases type : 5 ≤ e.variant
      · rw [if_pos type]
        refine ⟨_, rfl, fun clear => ?_, fun _ => ⟨.proto, rfl⟩⟩
        exact absurd (Or.inl fun sound => absurd sound.type (Nat.not_lt.2 type)) clear.1
      have sound : e.Sound after := ⟨ordered.1, ordered.2, Nat.not_le.1 type⟩
      rw [if_neg type]
      simp only [Option.bind_some]
      by_cases wanted : (e.variant : Int) = variant
      · rw [if_pos wanted]
        refine ⟨_, rfl, ?_⟩
        simp [ofVariant, wanted, BadForVariant, sound]
      rw [if_neg wanted, drop_sequence]
      have other : ofVariant variant e = false := by simp [ofVariant, wanted]
      have left := shorter (first ▸ List.dropWhile_suffix _) tail
      by_cases last : encodeAll (after.dropWhile Ie.isFrag) ++ tail = []
      · -- the loop ends at the end of the buffer
        obtain ⟨fuel, rfl⟩ : ∃ n, fuel = n + 1 := Nat.exists_eq_succ_of_ne_zero (by omega)
        rw [last, variantLoop, if_pos rfl]
        refine ⟨_, rfl, fun clear => ?_, fun _ => ⟨.inval, rfl⟩⟩
        exact absurd (Or.inr ⟨other, last⟩) clear.1
      · obtain ⟨r, found, right, wrong⟩ := ih (by omega) last
        refine ⟨r, found, ?_⟩
        rw [firstMlie_frags, clear_frags] at right
        rw [clear_frags] at wrong
        simp only [other, Bool.false_eq_true, if_false, BadForVariant, sound, not_true_eq_false,
          last, and_false, or_self, not_false_eq_true, true_and, forall_const]
        exact ⟨right, wrong⟩

theorem firstMlie_eq_some {kind : Ie → Bool} {found : List Ie} {n : Nat}
    (first : firstMlie kind es = some (found, n)) :
    ∃ before e after, es = before ++ e :: after ∧ found = e :: after ∧
      n = e.size + sizes (after.takeWhile Ie.isFrag) ∧ e.isMl ∧ kind e ∧
      ∀ x ∈ before, x.isMl → kind x = false := by
  induction es with
  | nil => cases first
  | cons e es ih =>
    rw [firstMlie] at first
    split at first
    · next here =>
      obtain ⟨rfl, rfl⟩ := Prod.mk.inj (Option.some.inj first)
      obtain ⟨ml, wanted⟩ := Bool.and_eq_true_iff.1 here
      exact ⟨[], e, es, rfl, rfl, rfl, ml, wanted, by simp⟩
    · next other =>
      obtain ⟨before, e', after, rfl, shape, long, ml, wanted, others⟩ := ih first
      refine ⟨e :: before, e', after, rfl, shape, long, ml, wanted, ?_⟩
      intro x member isMl
      rcases List.mem_cons.1 member with rfl | member
      · simpa [isMl] using other
      · exact others x member isMl

theorem firstMlie_eq_none {kind : Ie → Bool} (none : firstMlie kind es = none) :
    ∀ x ∈ es, x.isMl → kind x = false := by
  induction es with
  | nil => simp
  | cons e es ih =>
    rw [firstMlie] at none
    split at none
    · cases none
    · next other =>
      intro x member isMl
      rcases List.mem_cons.1 member with rfl | member
      · simpa [isMl] using other
      · exact ih none x member isMl

variable {mldAddr : Bytes}

theorem clear_variant (clear : Clear (ofMldAddr mldAddr) (BadForMldAddr tail) es) :
    Clear (ofVariant 0) (BadForVariant 0 tail) es := by
  induction es with
  | nil => trivial
  | cons e es ih =>
    rw [Clear] at clear ⊢
    split
    · next ml =>
      rw [if_pos ml] at clear
      refine ⟨fun bad => clear.1 (.inl bad), fun other => ih (clear.2 ?_)⟩
      simp [ofMldAddr, other]
    · next foreign =>
      rw [if_neg foreign] at clear
      exact ih clear

theorem mldAddr_skip {before : List Ie} (others : ∀ x ∈ before, x.isMl → ofVariant 0 x = false)
    (clear : Clear (ofVariant 0) (BadForVariant 0 tail) (before ++ es)) :
    firstMlie (ofMldAddr mldAddr) (before ++ es) = firstMlie (ofMldAddr mldAddr) es ∧
      (Clear (ofMldAddr mldAddr) (BadForMldAddr tail) (before ++ es) ↔
        Clear (ofMldAddr mldAddr) (BadForMldAddr tail) es) ∧
      Clear (ofVariant 0) (BadForVariant 0 tail) es := by
  induction before with
  | nil => exact ⟨rfl, Iff.rfl, clear⟩
  | cons x before ih =>
    have later : ∀ y ∈ before, y.isMl → ofVariant 0 y = false :=
      fun y member => others y (List.mem_cons_of_mem x member)
    rw [List.cons_append, Clear] at clear
    simp only [List.cons_append, firstMlie, Clear]
    cases ml : x.isMl with
    | false => exact ih later (by simpa [ml] using clear)
    | true =>
      have other := others x List.mem_cons_self ml
      simp only [ml, if_true, other, forall_const] at clear
      have notBad : ¬ BadForMldAddr tail x (before ++ es) := by
        simp [BadForMldAddr, clear.1, other]
      simpa [ofMldAddr, other, notBad] using ih later clear.2

theorem getBvmlieMldmacaddr_eq (ml : e.isMl) {after : List Ie} (sound : e.Sound after)
    (basic : ofVariant 0 e) :
    let found := getBvmlieMldmacaddr (encodeAll (e :: after) ++ tail)
      (e.size + sizes (after.takeWhile Ie.isFrag))
    (e.HasAddr → found = some (.ok e.mldAddr)) ∧
      (¬ e.HasAddr → ∃ status, found = some (.error status)) := by
  have variant : e.variant = 0 := by simpa [ofVariant] using basic
  obtain ⟨mlcontrol, read, type⟩ := @readMlcontrol_eq e (encodeAll after ++ tail) ml sound.control
    (e.size + sizes (after.takeWhile Ie.isFrag)) (by rw [Ie.size]; have := sound.control; omega)
  -- the address is in the leading element: a shorter one has no fragments
  have short : e.body.length < 10 → e.size + sizes (after.takeWhile Ie.isFrag) < 12 := by
    intro short
    cases after with
    | nil => simp [sizes, Ie.size]; omega
    | cons f after =>
      cases frag : f.isFrag with
      | false => simp [sizes, Ie.size, frag]; omega
      | true =>
        have full := (sound.chained frag).1
        omega
  simp only [getBvmlieMldmacaddr]
  rw [encodeAll_cons, read]
  simp only [Reads.andThen, Option.bind_some, type, variant, ne_eq, not_true_eq_false, if_false]
  by_cases room : 10 ≤ e.body.length
  · have length : ∃ more, e.body.length = 3 + more := ⟨e.body.length - 3, by omega⟩
    have byte : (e.encode ++ (encodeAll after ++ tail))[5]? = some (e.body.getD 3 0) := by
      simp only [Ie.encode, List.cons_append, List.getElem?_cons_succ]
      rw [List.getElem?_append_left (by omega), List.getD_eq_getElem?_getD,
        List.getElem?_eq_getElem (by omega)]
      rfl
    have addr : ((e.encode ++ (encodeAll after ++ tail)).drop (5 + 1)).take 6 = e.mldAddr := by
      simp only [Ie.encode, Ie.mldAddr, List.cons_append, List.drop_succ_cons]
      rw [List.drop_append_of_le_length (by omega), List.take_append_of_le_length (by simp; omega)]
    rw [if_neg (by rw [Ie.size]; omega), byte, Option.bind_some, e.length_encode, addr]
    rw [if_neg (show ¬ e.size + _ < _ by rw [Ie.size]; omega)]
    by_cases infoLen : 7 ≤ (e.body.getD 3 0).toNat
    · rw [if_neg (by omega)]
      exact ⟨fun _ => rfl, fun broken => absurd ⟨room, infoLen⟩ broken⟩
    · rw [if_pos (by omega)]
      exact ⟨fun has => absurd has.2 infoLen, fun _ => ⟨.proto, rfl⟩⟩
  · rw [if_pos (short (by omega))]
    exact ⟨fun has => absurd has.1 room, fun _ => ⟨.proto, rfl⟩⟩

theorem findMlieByVariant_basic (stops : Stops tail) (some_left : encodeAll es ++ tail ≠ []) :
    Searches (ofVariant 0) (BadForVariant 0 tail) es tail
      (findMlieByVariant (encodeAll es ++ tail) 0) := by
  rw [findMlieByVariant, if_neg some_left, if_neg (by decide)]
  exact variantLoop_spec 0 stops (Nat.lt_succ_self _) some_left

theorem mldaddrLoop_spec (stops : Stops tail) {fuel : Nat}
    (enough : (encodeAll es ++ tail).length < fuel) :
    Searches (ofMldAddr mldAddr) (BadForMldAddr tail) es tail
      (mldaddrLoop mldAddr fuel (encodeAll es ++ tail)) := by
  induction fuel generalizing es with
  | zero => exact absurd enough (Nat.not_lt_zero _)
  | succ fuel ih =>
    rw [mldaddrLoop]
    by_cases beyond : encodeAll es ++ tail = []
    · rw [if_pos beyond]
      obtain ⟨rfl, rfl⟩ := encodeAll_eq_nil.1 beyond
      exact ⟨_, rfl, fun _ => rfl, fun broken => absurd trivial broken⟩
    rw [if_neg beyond]
    obtain ⟨r, found, right, wrong⟩ := findMlieByVariant_basic stops beyond
    rw [found]
    by_cases clear : Clear (ofVariant 0) (BadForVariant 0 tail) es
    swap
    · obtain ⟨status, rfl⟩ := wrong clear
      exact ⟨_, rfl, fun clear' => absurd (clear_variant clear') clear, fun _ => ⟨status, rfl⟩⟩
    rw [right clear]
    cases first : firstMlie (ofVariant 0) es with
    | none =>
      have skip := @mldAddr_skip [] tail mldAddr es (firstMlie_eq_none first) (by simpa using clear)
      simp only [List.append_nil] at skip
      refine ⟨_, rfl, fun _ => ?_, fun broken => absurd (skip.2.1.2 trivial) broken⟩
      rw [skip.1]
      rfl
    | some sequence =>
      obtain ⟨es', n⟩ := sequence
      obtain ⟨before, e, after, rfl, rfl, rfl, ml, basic, others⟩ := firstMlie_eq_some first
      obtain ⟨same, clears, here⟩ := @mldAddr_skip _ tail mldAddr _ others clear
      simp only [Searches, same, clears]
      simp only [Clear, ml, if_true] at here
      have sound : e.Sound after := by
        by_contra unsound
        exact here.1 (.inl unsound)
      have address := @getBvmlieMldmacaddr_eq e tail ml after sound basic
      simp only [Reads.andThen, Option.map_some, Option.bind_some, firstMlie, Clear, ml, if_true,
        Bool.true_and]
      by_cases has : e.HasAddr
      swap
      · obtain ⟨status, failed⟩ := address.2 has
        rw [failed]
        exact ⟨_, rfl, fun clear' => absurd (Or.inr ⟨basic, has⟩) clear'.1, fun _ => ⟨status, rfl⟩⟩
      have notBad : ¬ BadForMldAddr tail e after := by
        rintro (bad | bad)
        · exact here.1 bad
        · exact bad.2 has
      rw [address.1 has]
      simp only [Option.bind_some]
      by_cases wanted : e.mldAddr = mldAddr
      · have length : e.size + sizes (after.takeWhile Ie.isFrag) ≤
            (encodeAll (e :: after) ++ tail).length := by
          have part := sizes_suffix (List.dropWhile_suffix Ie.isFrag (l := after))
          have whole : sizes (after.takeWhile Ie.isFrag ++ after.dropWhile Ie.isFrag) = sizes after :=
            congrArg sizes List.takeWhile_append_dropWhile
          simp only [sizes, List.map_append, List.sum_append] at whole part
          simp only [List.length_append, length_encodeAll, sizes, List.map_cons, List.sum_cons]
          omega
        have control := sound.control
        rw [if_pos wanted, if_neg (by rw [Ie.size] at length; omega),
          if_neg (by rw [Ie.size]; omega), if_neg (by omega)]
        refine ⟨_, rfl, ?_⟩
        simp [ofMldAddr, wanted, basic, notBad]
      · rw [if_neg wanted, drop_sequence]
        have left := @shorter e (before ++ e :: after) after (List.suffix_append _ _) tail
        obtain ⟨r, found, right, wrong⟩ := @ih (after.dropWhile Ie.isFrag) (by omega)
        rw [firstMlie_frags, clear_frags] at right
        rw [clear_frags] at wrong
        refine ⟨r, found, ?_⟩
        simpa [ofMldAddr, wanted, notBad] using ⟨right, wrong⟩

theorem Searches.right_iff {kind : Ie → Bool} {bad : Ie → List Ie → Prop}
    {found : Reads (Option (Bytes × Nat))} (searches : Searches kind bad es [] found) :
    found = some (.ok ((firstMlie kind es).map fun (es, n) => (encodeAll es, n))) ↔
      Clear kind bad es := by
  obtain ⟨r, rfl, right, wrong⟩ := searches
  simp only [List.append_nil] at right
  refine ⟨fun same => ?_, fun clear => by rw [right clear]⟩
  by_contra broken
  obtain ⟨status, rfl⟩ := wrong broken
  cases same

end

/-- On a sequence of elements that is not empty the searches find what they are for exactly if no
Multi-Link element up to it is bad, and they read no byte outside of any buffer. -/
theorem findMlie_iff (es : List Ie) (buf : Bytes) :
    ((∀ variant, findMlieByVariant (encodeAll es) variant =
          some (.ok ((firstMlie (ofVariant variant) es).map fun (es, n) => (encodeAll es, n))) ↔
        es ≠ [] ∧ variant < 5 ∧ Clear (ofVariant variant) (BadForVariant variant []) es) ∧
      ∀ mldAddr, findMlieByMldaddr (encodeAll es) mldAddr =
          some (.ok ((firstMlie (ofMldAddr mldAddr) es).map fun (es, n) => (encodeAll es, n))) ↔
        es ≠ [] ∧ Clear (ofMldAddr mldAddr) (BadForMldAddr []) es) ∧
      (∀ variant, (findMlieByVariant buf variant).isSome) ∧
        ∀ mldAddr, (findMlieByMldaddr buf mldAddr).isSome := by
  have stops : Stops [] := fun _ _ _ shape => by cases shape
  refine ⟨⟨fun variant => ?_, fun mldAddr => ?_⟩, ?_⟩
  · by_cases empty : es = []
    · simp [empty, findMlieByVariant, encodeAll]
    have some_left : encodeAll es ++ [] ≠ [] := fun beyond => empty (encodeAll_eq_nil.1 beyond).1
    have search := (variantLoop_spec variant stops (Nat.lt_succ_self _) some_left).right_iff
    rw [List.append_nil] at search some_left
    rw [findMlieByVariant, if_neg some_left]
    by_cases known : variant < 5
    · rw [if_neg (by omega), search]
      simp [empty, known]
    · simp [known, Int.not_lt.1 known]
  · by_cases empty : es = []
    · simp [empty, findMlieByMldaddr, encodeAll]
    have some_left : encodeAll es ++ [] ≠ [] := fun beyond => empty (encodeAll_eq_nil.1 beyond).1
    have search := (@mldaddrLoop_spec es [] mldAddr stops _ (Nat.lt_succ_self _)).right_iff
    rw [List.append_nil] at search some_left
    rw [findMlieByMldaddr, if_neg some_left, search]
    simp [empty]
  · obtain ⟨es, tail, rfl, stops⟩ := encodeAll_split buf
    refine ⟨fun variant => ?_, fun mldAddr => ?_⟩
    · rw [findMlieByVariant]
      split
      · rfl
      · next some_left =>
        split
        · rfl
        · obtain ⟨r, found, _⟩ := variantLoop_spec variant stops (Nat.lt_succ_self _) some_left
          rw [found]
          rfl
    · rw [findMlieByMldaddr]
      split
      · rfl
      · obtain ⟨r, found, _⟩ := @mldaddrLoop_spec es tail mldAddr stops _ (Nat.lt_succ_self _)
        rw [found]
        rfl

theorem findMlieByVariant_last :
    let es : List Ie := [⟨255, [107, 1, 0], by decide⟩]
    findMlieByVariant (encodeAll es) 0 ≠
      some (.ok ((firstMlie (ofVariant 0) es).map fun (es, n) => (encodeAll es, n))) := by
  intro es same
  have failed : findMlieByVariant (encodeAll es) 0 = some (.error .inval) := rfl
  rw [failed] at same
  cases same

end VendorModules.IeUtil
