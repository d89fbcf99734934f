import VendorModules.IeUtil.Capability

namespace VendorModules.IeUtil

/-! How an element is looked for in a frame: `wlan_is_ie_valid` and
`wlan_get_ie_ptr_from_eid_n_oui`. -/

/-- The loop of `wlan_is_ie_valid`; nothing if a byte is not in the buffer. -/
def isIeValidLoop (ie : Bytes) : Nat → Nat → Nat → Option Bool
  | 0, _, _ => none
  | fuel + 1, pos, ieLen =>
    if ieLen = 0 then some true
    else if ieLen < 2 then some false
    else
      (ie[pos + 1]?).bind fun elen =>
        if ieLen - 2 < elen.toNat then some false
        else isIeValidLoop ie fuel (pos + 2 + elen.toNat) (ieLen - 2 - elen.toNat)

def isIeValid (ie : Bytes) : Option Bool := isIeValidLoop ie (ie.length + 1) 0 ie.length

def readBytes (ie : Bytes) (pos size : Nat) : Option Bytes :=
  if pos + size ≤ ie.length then some ((ie.drop pos).take size) else none

/-- The loop of `wlan_get_ie_ptr_from_eid_n_oui`. -/
def getIePtrLoop (eid : BitVec 8) (oui : Option Bytes) (ie : Bytes) :
    Nat → Nat → Nat → Option (Option Nat)
  | 0, _, _ => none
  | fuel + 1, pos, left =>
    if left < 2 then some none
    else
      (ie[pos]?).bind fun elemId => (ie[pos + 1]?).bind fun elemLen =>
        let left := left - 2
        if left < elemLen.toNat then some none
        else
          let next := getIePtrLoop eid oui ie fuel (pos + (elemLen.toNat + 2))
            (left - elemLen.toNat)
          if eid = elemId then
            match oui with
            | none => some (some pos)
            | some oui =>
              if left < oui.length then some none
              else
                (readBytes ie (pos + 2) oui.length).bind fun bytes =>
                  if bytes = oui then some (some pos) else next
          else next

/-- `wlan_get_ie_ptr_from_eid_n_oui`: the place of an element, or no place; nothing at all if a byte
outside of the buffer is read. -/
def getIePtr (eid : BitVec 8) (oui : Option Bytes) (ie : Bytes) : Option (Option Nat) :=
  getIePtrLoop eid oui ie (ie.length + 1) 0 ie.length

/-! ### Elements -/

structure Element where
  pos : Nat
  id : BitVec 8
  len : Nat
  after : Bytes

namespace Element

def body (e : Element) : Bytes := e.after.take e.len

def encode (e : Element) : Bytes := e.id :: BitVec.ofNat 8 e.len :: e.body

def Matches (eid : BitVec 8) (oui : Option Bytes) (e : Element) : Prop :=
  e.id = eid ∧ ∀ start ∈ oui, start <+: e.body

/-- The element has the id, and the prefix is behind its length field, whether or not all of it is
in the body. -/
def Resembles (eid : BitVec 8) (oui : Option Bytes) (e : Element) : Prop :=
  e.id = eid ∧ ∀ start ∈ oui, start <+: e.after

instance (eid : BitVec 8) (oui : Option Bytes) (e : Element) : Decidable (e.Matches eid oui) := by
  unfold Matches
  infer_instance

instance (eid : BitVec 8) (oui : Option Bytes) (e : Element) :
    Decidable (e.Resembles eid oui) := by
  unfold Resembles
  infer_instance

end Element

def elementsFrom (pos : Nat) : Bytes → List Element
  | id :: len :: after =>
    if len.toNat ≤ after.length then
      ⟨pos, id, len.toNat, after⟩ :: elementsFrom (pos + (len.toNat + 2)) (after.drop len.toNat)
    else []
  | _ => []
termination_by bytes => bytes.length
decreasing_by
  simp only [List.length_drop, List.length_cons]
  omega

def elements (ie : Bytes) : List Element := elementsFrom 0 ie

def search (eid : BitVec 8) (oui : Option Bytes) (ie : Bytes) : Option Nat :=
  ((elements ie).find? fun e => decide (e.Matches eid oui)).map Element.pos

section

variable {eid : BitVec 8} {oui : Option Bytes} {ie bytes : Bytes} {pos fuel : Nat} {e : Element}

theorem elementsFrom_short (short : bytes.length < 2) : elementsFrom pos bytes = [] := by
  match bytes, short with
  | [], _ => rw [elementsFrom]; simp
  | [_], _ => rw [elementsFrom]; simp

theorem of_mem_elementsFrom (member : e ∈ elementsFrom pos bytes) :
    pos ≤ e.pos ∧ e.pos - pos + 2 + e.after.length = bytes.length ∧ e.len ≤ e.after.length := by
  induction pos, bytes using elementsFrom.induct with
  | case1 pos id len after fits ih =>
    rw [elementsFrom, if_pos fits] at member
    rcases List.mem_cons.mp member with rfl | later
    · refine ⟨le_rfl, ?_, fits⟩
      change pos - pos + 2 + after.length = after.length + 1 + 1
      omega
    · obtain ⟨behind, length, inside⟩ := ih later
      rw [List.length_drop] at length
      refine ⟨by omega, ?_, inside⟩
      simp only [List.length_cons]
      omega
  | case2 pos id len after short =>
    rw [elementsFrom, if_neg short] at member
    exact absurd member List.not_mem_nil
  | case3 pos bytes other =>
    rw [elementsFrom] at member
    · exact absurd member List.not_mem_nil
    · exact other

theorem pairwise_elementsFrom :
    (elementsFrom pos bytes).Pairwise fun e e' => e.pos < e'.pos := by
  induction pos, bytes using elementsFrom.induct with
  | case1 pos id len after fits ih =>
    rw [elementsFrom, if_pos fits]
    refine List.pairwise_cons.mpr ⟨fun e later => ?_, ih⟩
    have behind := (of_mem_elementsFrom later).1
    change pos < e.pos
    omega
  | case2 pos id len after short =>
    rw [elementsFrom, if_neg short]
    exact .nil
  | case3 pos bytes other =>
    rw [elementsFrom]
    · exact .nil
    · exact other

theorem Element.matches_iff :
    e.Matches eid oui ↔ e.Resembles eid oui ∧ ∀ start ∈ oui, start.length ≤ e.len := by
  rw [Matches, Resembles, and_assoc]
  refine and_congr_right fun _ => ?_
  rw [← forall₂_and]
  refine forall₂_congr fun start _ => ?_
  rw [body, List.prefix_take_iff]

/-- The loop finds the first element that has the id and is followed by the prefix, and does not
read outside of the buffer. -/
theorem getIePtrLoop_eq (here : bytes = ie.drop pos) (enough : bytes.length < fuel) :
    getIePtrLoop eid oui ie fuel pos bytes.length =
      some (((elementsFrom pos bytes).find? fun e => decide (e.Resembles eid oui)).map
        Element.pos) := by
  induction fuel generalizing pos bytes with
  | zero => exact absurd enough (Nat.not_lt_zero _)
  | succ fuel ih =>
    rw [getIePtrLoop]
    by_cases short : bytes.length < 2
    · rw [if_pos short, elementsFrom_short short]
      rfl
    · rw [if_neg short]
      obtain ⟨id, len, after, rfl⟩ : ∃ id len after, bytes = id :: len :: after := by
        match bytes, short with
        | id :: len :: after, _ => exact ⟨id, len, after, rfl⟩
        | [_], short => exact absurd Nat.one_lt_two short
        | [], short => exact absurd Nat.zero_lt_two short
      have at0 : ie[pos]? = some id := by
        rw [← List.head?_drop, ← here]
        rfl
      have rest : ie.drop (pos + 1) = len :: after := by
        rw [← List.drop_drop, ← here]
        rfl
      have at1 : ie[pos + 1]? = some len := by
        rw [← List.head?_drop, rest]
        rfl
      have behind : ie.drop (pos + 2) = after := by
        rw [← List.drop_drop, ← here]
        rfl
      have left : (id :: len :: after).length - 2 = after.length := rfl
      have beyond : after.drop len.toNat = ie.drop (pos + (len.toNat + 2)) := by
        rw [← behind, List.drop_drop]
        congr 1
        omega
      have later := ih beyond
        (by
          rw [List.length_drop]
          simp only [List.length_cons] at enough
          omega)
      rw [List.length_drop] at later
      rw [at0, Option.bind_some, at1, Option.bind_some, left]
      dsimp only
      rw [elementsFrom, later]
      by_cases fits : len.toNat ≤ after.length
      · rw [if_neg (Nat.not_lt.mpr fits), if_pos fits, List.find?_cons]
        by_cases same : eid = id
        · rw [if_pos same]
          cases oui with
          | none =>
            have found : Element.Resembles eid none ⟨pos, id, len.toNat, after⟩ :=
              ⟨same.symm, fun _ member => absurd member (Option.not_mem_none _)⟩
            rw [decide_eq_true found]
            rfl
          | some oui =>
            dsimp only
            by_cases tail : after.length < oui.length
            · rw [if_pos tail, eq_comm]
              have none_later (e : Element) (member : e ∈ ⟨pos, id, len.toNat, after⟩ ::
                  elementsFrom (pos + (len.toNat + 2)) (after.drop len.toNat)) :
                  ¬decide (e.Resembles eid (some oui)) = true := by
                intro found
                have long := ((of_decide_eq_true found).2 oui rfl).length_le
                rcases List.mem_cons.mp member with rfl | later
                · exact absurd long (Nat.not_le.mpr tail)
                · have length := (of_mem_elementsFrom later).2.1
                  rw [List.length_drop] at length
                  omega
              have nothing := List.find?_eq_none.mpr none_later
              rw [List.find?_cons] at nothing
              rw [nothing]
              rfl
            · have all : pos + 2 + oui.length ≤ ie.length := by
                have length := congrArg List.length behind
                have inside := (List.getElem?_eq_some_iff.mp at1).1
                rw [List.length_drop] at length
                omega
              have compared : (ie.drop (pos + 2)).take oui.length = oui ↔ oui <+: after := by
                rw [behind, eq_comm, List.prefix_iff_eq_take]
              rw [if_neg tail, readBytes, if_pos all, Option.bind_some]
              by_cases match' : oui <+: after
              · have found : Element.Resembles eid (some oui) ⟨pos, id, len.toNat, after⟩ :=
                  ⟨same.symm, fun _ member => by cases member; exact match'⟩
                rw [if_pos (compared.mpr match'), decide_eq_true found]
                rfl
              · have other : ¬Element.Resembles eid (some oui) ⟨pos, id, len.toNat, after⟩ :=
                  fun found => match' (found.2 oui rfl)
                rw [if_neg (mt compared.mp match'), decide_eq_false other]
        · have other : ¬Element.Resembles eid oui ⟨pos, id, len.toNat, after⟩ :=
            fun found => same found.1.symm
          rw [if_neg same, decide_eq_false other]
      · rw [if_pos (Nat.not_le.mp fits), if_neg fits]
        rfl

theorem getIePtr_eq : getIePtr eid oui ie =
    some (((elements ie).find? fun e => decide (e.Resembles eid oui)).map Element.pos) :=
  getIePtrLoop_eq rfl (Nat.lt_succ_self _)

def FirstWhole (eid : BitVec 8) (oui : Option Bytes) (ie : Bytes) : Prop :=
  ∀ e ∈ (elements ie).find? (fun e => decide (e.Resembles eid oui)), ∀ start ∈ oui,
    start.length ≤ e.len

theorem getIePtr_found (eid : BitVec 8) (oui : Option Bytes) (ie : Bytes) :
    ∃ found, getIePtr eid oui ie = some found ∧
      (found = search eid oui ie ↔ FirstWhole eid oui ie) := by
  refine ⟨_, getIePtr_eq, ?_⟩
  rw [search, FirstWhole]
  cases first : (elements ie).find? fun e => decide (e.Resembles eid oui) with
  | none =>
    refine iff_of_true ?_ fun e member => absurd member (Option.not_mem_none e)
    have nothing : (elements ie).find? (fun e => decide (e.Matches eid oui)) = none := by
      rw [List.find?_eq_none] at first ⊢
      intro e member found
      exact first e member (decide_eq_true (Element.matches_iff.mp (of_decide_eq_true found)).1)
    rw [nothing]
  | some e =>
    have resembles : e.Resembles eid oui := by
      have found := List.find?_some first
      exact of_decide_eq_true found
    rw [List.find?_eq_some_iff_append] at first
    obtain ⟨-, before, after, split, none_before⟩ := first
    have skipped : before.find? (fun e => decide (e.Matches eid oui)) = none := by
      rw [List.find?_eq_none]
      intro e' member found
      have no := none_before e' member
      rw [decide_eq_true (Element.matches_iff.mp (of_decide_eq_true found)).1] at no
      cases no
    have order : (elements ie).Pairwise fun e e' => e.pos < e'.pos := pairwise_elementsFrom
    rw [split] at order ⊢
    rw [List.find?_append, skipped, Option.none_or, List.find?_cons]
    constructor
    · intro same e' is_first start member
      obtain rfl := Option.mem_some_iff.mp is_first
      by_contra long
      have other : ¬e.Matches eid oui := fun found =>
        long ((Element.matches_iff.mp found).2 start member)
      rw [decide_eq_false other] at same
      obtain ⟨e', found, place⟩ := Option.map_eq_some_iff.mp same.symm
      have later := List.mem_of_find?_eq_some found
      have behind := (List.pairwise_cons.mp (List.pairwise_append.mp order).2.1).1 e' later
      exact absurd place (Nat.ne_of_gt behind)
    · intro whole
      have found : e.Matches eid oui := Element.matches_iff.mpr ⟨resembles, whole e rfl⟩
      rw [decide_eq_true found]

theorem isIeValidLoop_eq (here : bytes = ie.drop pos) (enough : bytes.length < fuel) :
    isIeValidLoop ie fuel pos bytes.length =
      some (decide ((elementsFrom pos bytes).flatMap Element.encode = bytes)) := by
  induction fuel generalizing pos bytes with
  | zero => exact absurd enough (Nat.not_lt_zero _)
  | succ fuel ih =>
    rw [isIeValidLoop]
    match bytes, here, enough with
    | [], _, _ => simp [elementsFrom]
    | [byte], _, _ => simp [elementsFrom]
    | id :: len :: after, here, enough =>
      have rest : ie.drop (pos + 1) = len :: after := by
        rw [← List.drop_drop, ← here]
        rfl
      have at1 : ie[pos + 1]? = some len := by
        rw [← List.head?_drop, rest]
        rfl
      have behind : ie.drop (pos + 2) = after := by
        rw [← List.drop_drop, ← here]
        rfl
      have left : (id :: len :: after).length - 2 = after.length := rfl
      have long : ¬(id :: len :: after).length < 2 := by
        simp only [List.length_cons]
        omega
      have some_left : (id :: len :: after).length ≠ 0 := Nat.succ_ne_zero _
      rw [if_neg some_left, if_neg long, at1, Option.bind_some, left, elementsFrom]
      by_cases fits : len.toNat ≤ after.length
      · have beyond : after.drop len.toNat = ie.drop (pos + 2 + len.toNat) := by
          rw [← behind, List.drop_drop]
        have later := ih beyond
          (by
            rw [List.length_drop]
            simp only [List.length_cons] at enough
            omega)
        rw [List.length_drop] at later
        rw [if_neg (Nat.not_lt.mpr fits), if_pos fits, later, List.flatMap_cons,
          Nat.add_assoc, Nat.add_comm 2]
        congr 2
        rw [Element.encode, Element.body, BitVec.ofNat_toNat, BitVec.setWidth_eq, eq_iff_iff]
        simp only [List.cons_append, List.cons.injEq, true_and]
        rw [← List.append_right_inj (after.take len.toNat), List.take_append_drop]
      · rw [if_pos (Nat.not_le.mp fits), if_neg fits]
        rfl

theorem isIeValid_eq :
    isIeValid ie = some (decide ((elements ie).flatMap Element.encode = ie)) :=
  isIeValidLoop_eq rfl (Nat.lt_succ_self _)

end

/-- No byte outside of the buffer is read, and what is found is what is searched for exactly if the
first element that is followed by the prefix is not too short for it. The search is over all of a
buffer that is found valid. -/
theorem getIePtr_iff (eid : BitVec 8) (oui : Option Bytes) (ie : Bytes) :
    (∃ found, getIePtr eid oui ie = some found ∧
      (found = search eid oui ie ↔ FirstWhole eid oui ie)) ∧
    isIeValid ie = some (decide ((elements ie).flatMap Element.encode = ie)) :=
  ⟨getIePtr_found eid oui ie, isIeValid_eq⟩

/-- An element with an empty body, and an element of another id whose header is taken for its
prefix. -/
theorem getIePtr_short : getIePtr 0xDD (some [0x30, 0x01]) [0xDD, 0, 0x30, 0x01, 0x07] =
    some (some 0) ∧ search 0xDD (some [0x30, 0x01]) [0xDD, 0, 0x30, 0x01, 0x07] = none := by
  constructor
  · decide
  · simp [search, elements, elementsFrom, Element.Matches, Element.body]

end VendorModules.IeUtil
