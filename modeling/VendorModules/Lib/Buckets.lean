import Mathlib.Data.List.Nodup
import Mathlib.Data.List.Basic
import Mathlib.Logic.Function.Basic

namespace VendorModules.Lib

variable {α : Type*}

/-- `Linked next prev p l q`: the list `l` is threaded through the two index
functions, entered from `p` and left to `q`. -/
def Linked (next prev : α → α) : α → List α → α → Prop
  | _, [], _ => True
  | p, i :: l, q => prev i = p ∧ next i = l.headD q ∧ Linked next prev i l q

/-- `Follows next nil i l`: walking along `next` from `i` visits `l` and then
stops at `nil`. -/
def Follows (next : α → α) (nil : α) : α → List α → Prop
  | i, [] => i = nil
  | i, j :: l => i ≠ nil ∧ j = i ∧ Follows next nil (next i) l

section

variable {next prev next' prev' : α → α} {nil : α}

@[simp] theorem linked_nil (p q : α) : Linked next prev p [] q := trivial

@[simp] theorem linked_cons (p q i : α) (l : List α) :
    Linked next prev p (i :: l) q ↔
      prev i = p ∧ next i = l.headD q ∧ Linked next prev i l q := Iff.rfl

theorem linked_append (p q : α) (l r : List α) :
    Linked next prev p (l ++ r) q ↔
      Linked next prev p l (r.headD q) ∧
        Linked next prev (l.getLastD p) r q := by
  induction l generalizing p with
  | nil => simp
  | cons head tail induction =>
    simp only [List.cons_append, linked_cons, induction]
    have headEq : (tail ++ r).headD q = tail.headD (r.headD q) := by
      cases tail <;> simp
    rw [headEq, List.getLastD_cons]
    tauto

theorem Linked.congr {p q : α} {l : List α} (linked : Linked next prev p l q)
    (nextEq : ∀ i ∈ l, next' i = next i) (prevEq : ∀ i ∈ l, prev' i = prev i) :
    Linked next' prev' p l q := by
  induction l generalizing p with
  | nil => trivial
  | cons head tail induction =>
    obtain ⟨hprev, hnext, rest⟩ := linked
    refine ⟨?_, ?_, ?_⟩
    · rw [prevEq head List.mem_cons_self, hprev]
    · rw [nextEq head List.mem_cons_self, hnext]
    · exact induction rest
        (fun i member => nextEq i (List.mem_cons_of_mem _ member))
        (fun i member => prevEq i (List.mem_cons_of_mem _ member))

theorem Linked.prev_eq {p q i : α} {l r : List α}
    (linked : Linked next prev p (l ++ i :: r) q) : prev i = l.getLastD p :=
  ((linked_append p q l (i :: r)).mp linked).2.1

theorem Linked.next_eq {p q i : α} {l r : List α}
    (linked : Linked next prev p (l ++ i :: r) q) : next i = r.headD q :=
  ((linked_append p q l (i :: r)).mp linked).2.2.1

theorem Linked.redirect {p q q' last : α} {l : List α}
    (linked : Linked next prev p (l ++ [last]) q)
    (nextLast : next' last = q')
    (nextEq : ∀ i ∈ l, next' i = next i)
    (prevEq : ∀ i ∈ l ++ [last], prev' i = prev i) :
    Linked next' prev' p (l ++ [last]) q' := by
  obtain ⟨front, back⟩ := (linked_append p q l [last]).mp linked
  refine (linked_append p q' l [last]).mpr ⟨?_, ?_, ?_, trivial⟩
  · exact front.congr nextEq
      (fun i member => prevEq i (List.mem_append_left _ member))
  · rw [prevEq last (by simp), back.1]
  · exact nextLast

theorem Linked.reenter {p p' q head : α} {l : List α}
    (linked : Linked next prev p (head :: l) q)
    (prevHead : prev' head = p')
    (nextEq : ∀ i ∈ head :: l, next' i = next i)
    (prevEq : ∀ i ∈ l, prev' i = prev i) :
    Linked next' prev' p' (head :: l) q := by
  obtain ⟨-, hnext, rest⟩ := linked
  refine ⟨prevHead, ?_, ?_⟩
  · rw [nextEq head List.mem_cons_self, hnext]
  · exact rest.congr
      (fun i member => nextEq i (List.mem_cons_of_mem _ member)) prevEq

theorem Linked.follows {p : α} {l : List α}
    (linked : Linked next prev p l nil) (nonnil : nil ∉ l) :
    Follows next nil (l.headD nil) l := by
  induction l generalizing p with
  | nil => rfl
  | cons head tail induction =>
    obtain ⟨-, hnext, rest⟩ := linked
    refine ⟨?_, rfl, ?_⟩
    · intro headNil
      exact nonnil (headNil ▸ List.mem_cons_self)
    · rw [List.headD_cons, hnext]
      exact induction rest
        (fun member => nonnil (List.mem_cons_of_mem _ member))

theorem Follows.unique {i : α} {l r : List α}
    (left : Follows next nil i l) (right : Follows next nil i r) : l = r := by
  induction l generalizing i r with
  | nil =>
    cases r with
    | nil => rfl
    | cons head tail => exact absurd left right.1
  | cons head tail induction =>
    obtain ⟨leftNonnil, rfl, leftRest⟩ := left
    cases r with
    | nil => exact absurd right leftNonnil
    | cons other rest =>
      obtain ⟨-, rfl, rightRest⟩ := right
      rw [induction leftRest rightRest]

theorem follows_congr {used : α → Prop} (closed : ∀ i, used i → next i = nil ∨ used (next i))
    (agree : ∀ i, used i → next' i = next i) {i : α} (start : i = nil ∨ used i) (l : List α) :
    Follows next' nil i l ↔ Follows next nil i l := by
  induction l generalizing i with
  | nil => exact Iff.rfl
  | cons head tail ih =>
    rcases start with stopped | busy
    · exact iff_of_false (fun walk => walk.1 stopped) fun walk => walk.1 stopped
    · rw [Follows, Follows, agree i busy, ih (closed i busy)]

end

end VendorModules.Lib

namespace VendorModules.Lib

variable {α : Type*}

/-- A family of disjoint threaded chains that covers the occupied slots. That of bucket `b` is
empty or starts at the head slot `b`; its other slots are overflow slots. -/
structure Buckets (next prev : α → α) (nil : α) (occupied head : α → Prop)
    (chain : α → List α) : Prop where
  linked : ∀ b, Linked next prev nil (chain b) nil
  headed : ∀ b i l, chain b = i :: l → i = b ∧ head b ∧ ∀ j ∈ l, ¬head j
  nodup : ∀ b, (chain b).Nodup
  covers : ∀ i, occupied i ↔ ∃ b, i ∈ chain b
  disjoint : ∀ b c i, i ∈ chain b → i ∈ chain c → b = c
  nonnil : ¬occupied nil

namespace Buckets

variable {next prev next' prev' : α → α} {nil : α}
  {occupied occupied' head : α → Prop} {chain : α → List α}

theorem empty (next prev : α → α) (nil : α) (head : α → Prop)
    (vacant : ∀ i, ¬occupied i) :
    Buckets next prev nil occupied head (fun _ => []) where
  linked := fun _ => trivial
  headed := by simp
  nodup := fun _ => List.nodup_nil
  covers := fun i => by simp [vacant i]
  disjoint := by simp
  nonnil := vacant nil

section Local

variable (buckets : Buckets next prev nil occupied head chain)
include buckets

theorem occupied_of_mem {b i : α} (member : i ∈ chain b) : occupied i :=
  (buckets.covers i).mpr ⟨b, member⟩

theorem nil_not_mem (b : α) : nil ∉ chain b :=
  fun member => buckets.nonnil (buckets.occupied_of_mem member)

theorem ne_nil_of_mem {b i : α} (member : i ∈ chain b) : i ≠ nil := by
  rintro rfl
  exact buckets.nil_not_mem b member

theorem eq_cons {b : α} (nonempty : chain b ≠ []) :
    ∃ tail, chain b = b :: tail ∧ head b ∧ ∀ j ∈ tail, ¬head j := by
  cases shape : chain b with
  | nil => exact absurd shape nonempty
  | cons i tail =>
    obtain ⟨rfl, isHead, overflow⟩ := buckets.headed b i tail shape
    exact ⟨tail, rfl, isHead, overflow⟩

theorem head_mem {b : α} (nonempty : chain b ≠ []) : b ∈ chain b := by
  obtain ⟨tail, shape, -⟩ := buckets.eq_cons nonempty
  simp [shape]

theorem eq_of_head_mem {b i : α} (member : i ∈ chain b) (isHead : head i) :
    i = b := by
  obtain ⟨tail, shape, -, overflow⟩ :=
    buckets.eq_cons (List.ne_nil_of_mem member)
  rw [shape] at member
  cases member with
  | head => rfl
  | tail _ inTail => exact absurd isHead (overflow i inTail)

theorem occupied_head_iff {b : α} (isHead : head b) :
    occupied b ↔ chain b ≠ [] := by
  constructor
  · intro busy
    obtain ⟨c, member⟩ := (buckets.covers b).mp busy
    obtain rfl := buckets.eq_of_head_mem member isHead
    exact List.ne_nil_of_mem member
  · exact fun nonempty => buckets.occupied_of_mem (buckets.head_mem nonempty)

theorem follows (b : α) : Follows next nil ((chain b).headD nil) (chain b) :=
  (buckets.linked b).follows (buckets.nil_not_mem b)

theorem follows_head {b : α} (nonempty : chain b ≠ []) :
    Follows next nil b (chain b) := by
  have walk := buckets.follows b
  obtain ⟨tail, shape, -⟩ := buckets.eq_cons nonempty
  rw [shape] at walk ⊢
  exact walk

theorem prev_eq {b i : α} {l r : List α} (shape : chain b = l ++ i :: r) :
    prev i = l.getLastD nil :=
  (shape ▸ buckets.linked b : Linked next prev nil (l ++ i :: r) nil).prev_eq

theorem next_eq {b i : α} {l r : List α} (shape : chain b = l ++ i :: r) :
    next i = r.headD nil :=
  (shape ▸ buckets.linked b : Linked next prev nil (l ++ i :: r) nil).next_eq

theorem prev_of_next {i j : α} (busy : occupied i) (jNonnil : j ≠ nil)
    (link : next i = j) : occupied j ∧ prev j = i := by
  obtain ⟨b, member⟩ := (buckets.covers i).mp busy
  obtain ⟨l, r, shape⟩ := List.append_of_mem member
  cases r with
  | nil => exact absurd (link.symm.trans (buckets.next_eq shape)) jNonnil
  | cons k r =>
    have nextK : next i = k := buckets.next_eq shape
    obtain rfl : k = j := nextK.symm.trans link
    have shape' : chain b = (l ++ [i]) ++ k :: r := by simp [shape]
    refine ⟨buckets.occupied_of_mem (b := b) (by simp [shape]), ?_⟩
    rw [buckets.prev_eq shape']
    simp

theorem next_of_prev {i j : α} (busy : occupied j) (iNonnil : i ≠ nil)
    (link : prev j = i) : occupied i ∧ next i = j := by
  obtain ⟨b, member⟩ := (buckets.covers j).mp busy
  obtain ⟨l, r, shape⟩ := List.append_of_mem member
  rcases List.eq_nil_or_concat' l with rfl | ⟨l, k, rfl⟩
  · exact absurd (link.symm.trans (buckets.prev_eq shape)) iNonnil
  · have prevK : prev j = k := by
      rw [buckets.prev_eq shape]
      simp
    obtain rfl : k = i := prevK.symm.trans link
    have shape' : chain b = l ++ k :: j :: r := by simp [shape]
    exact ⟨buckets.occupied_of_mem (b := b) (by simp [shape]),
      buckets.next_eq shape'⟩

theorem mem_of_next_mem {b i j : α} (iNonnil : i ≠ nil) (link : prev j = i)
    (member : j ∈ chain b) : i ∈ chain b := by
  obtain ⟨l, r, shape⟩ := List.append_of_mem member
  have last := (buckets.prev_eq shape).symm.trans link
  rcases List.eq_nil_or_concat' l with rfl | ⟨front, k, rfl⟩
  · exact absurd last.symm iNonnil
  · obtain rfl : k = i := by simpa using last
    simp [shape]

theorem prev_eq_nil_iff {i : α} (busy : occupied i) :
    prev i = nil ↔ head i := by
  obtain ⟨b, member⟩ := (buckets.covers i).mp busy
  obtain ⟨tail, shape, isHead, overflow⟩ :=
    buckets.eq_cons (List.ne_nil_of_mem member)
  constructor
  · intro entry
    by_contra notHead
    have inTail : i ∈ tail := by
      rw [shape] at member
      cases member with
      | head => exact absurd isHead notHead
      | tail _ inTail => exact inTail
    obtain ⟨l, r, rfl⟩ := List.append_of_mem inTail
    have lastMem : (b :: l).getLast (by simp) ∈ chain b := by
      rw [shape]
      exact List.mem_append_left (i :: r) (List.getLast_mem (l := b :: l) _)
    have prevLast := buckets.prev_eq (l := b :: l) (i := i) (r := r) shape
    rw [entry, List.getLastD_eq_getLast?,
      List.getLast?_eq_some_getLast (by simp), Option.getD_some] at prevLast
    exact buckets.ne_nil_of_mem lastMem prevLast.symm
  · intro iHead
    obtain rfl := buckets.eq_of_head_mem member iHead
    exact buckets.prev_eq (l := []) shape

end Local

theorem congr (buckets : Buckets next prev nil occupied head chain)
    (nextEq : ∀ i, occupied i → next' i = next i)
    (prevEq : ∀ i, occupied i → prev' i = prev i)
    (occupiedEq : ∀ i, occupied' i ↔ occupied i) :
    Buckets next' prev' nil occupied' head chain where
  linked := fun b => (buckets.linked b).congr
    (fun i member => nextEq i (buckets.occupied_of_mem member))
    (fun i member => prevEq i (buckets.occupied_of_mem member))
  headed := buckets.headed
  nodup := buckets.nodup
  covers := fun i => (occupiedEq i).trans (buckets.covers i)
  disjoint := buckets.disjoint
  nonnil := fun busy => buckets.nonnil ((occupiedEq nil).mp busy)

theorem replace (buckets : Buckets next prev nil occupied head chain)
    [DecidableEq α] {b : α} {l : List α}
    (headed : ∀ i t, l = i :: t → i = b ∧ head b ∧ ∀ j ∈ t, ¬head j)
    (linked : Linked next' prev' nil l nil)
    (nodup : l.Nodup)
    (nonnil : nil ∉ l)
    (fresh : ∀ i ∈ l, i ∈ chain b ∨ ¬occupied i)
    (frame : ∀ c, c ≠ b → ∀ i ∈ chain c, next' i = next i ∧ prev' i = prev i)
    (occupancy : ∀ i, occupied' i ↔ i ∈ l ∨ (occupied i ∧ i ∉ chain b)) :
    Buckets next' prev' nil occupied' head (Function.update chain b l) where
  linked := by
    intro c
    by_cases same : c = b
    · subst same
      simpa using linked
    · rw [Function.update_of_ne same]
      exact (buckets.linked c).congr
        (fun i member => (frame c same i member).1)
        (fun i member => (frame c same i member).2)
  headed := by
    intro c i t shape
    by_cases same : c = b
    · subst same
      exact headed i t (by simpa using shape)
    · rw [Function.update_of_ne same] at shape
      exact buckets.headed c i t shape
  nodup := by
    intro c
    by_cases same : c = b
    · subst same
      simpa using nodup
    · rw [Function.update_of_ne same]
      exact buckets.nodup c
  covers := by
    intro i
    rw [occupancy i]
    constructor
    · rintro (member | ⟨busy, outside⟩)
      · exact ⟨b, by simpa using member⟩
      · obtain ⟨c, member⟩ := (buckets.covers i).mp busy
        refine ⟨c, ?_⟩
        rw [Function.update_of_ne]
        · exact member
        · rintro rfl
          exact outside member
    · rintro ⟨c, member⟩
      by_cases same : c = b
      · subst same
        exact Or.inl (by simpa using member)
      · rw [Function.update_of_ne same] at member
        refine Or.inr ⟨buckets.occupied_of_mem member, ?_⟩
        exact fun inside => same (buckets.disjoint c b i member inside)
  disjoint := by
    have apart : ∀ c i, c ≠ b → i ∈ l → i ∉ chain c := by
      intro c i different member inside
      rcases fresh i member with old | free
      · exact different (buckets.disjoint c b i inside old)
      · exact free (buckets.occupied_of_mem inside)
    intro c d i left right
    by_cases cSame : c = b
    · by_cases dSame : d = b
      · rw [cSame, dSame]
      · rw [Function.update_of_ne dSame] at right
        subst cSame
        rw [Function.update_self] at left
        exact absurd right (apart d i dSame left)
    · rw [Function.update_of_ne cSame] at left
      by_cases dSame : d = b
      · subst dSame
        rw [Function.update_self] at right
        exact absurd left (apart c i cSame right)
      · rw [Function.update_of_ne dSame] at right
        exact buckets.disjoint c d i left right
  nonnil := by
    rw [occupancy nil]
    rintro (member | ⟨busy, -⟩)
    · exact nonnil member
    · exact buckets.nonnil busy

section Update

variable [DecidableEq α]
  (buckets : Buckets next prev nil occupied head chain)
include buckets

theorem insert {b e : α} (isHead : head b) (free : ¬occupied e)
    (nonnil : e ≠ nil)
    (first : chain b = [] → e = b)
    (overflow : chain b ≠ [] → ¬head e)
    (nextNew : next' e = nil)
    (prevNew : prev' e = (chain b).getLastD nil)
    (nextLast : chain b ≠ [] → next' ((chain b).getLastD nil) = e)
    (nextOld : ∀ i, occupied i → i ≠ (chain b).getLastD nil → next' i = next i)
    (prevOld : ∀ i, occupied i → prev' i = prev i)
    (occupancy : ∀ i, occupied' i ↔ occupied i ∨ i = e) :
    Buckets next' prev' nil occupied' head
      (Function.update chain b (chain b ++ [e])) := by
  have outside : ∀ c, e ∉ chain c :=
    fun c member => free (buckets.occupied_of_mem member)
  have lastMem : ∀ l last, chain b = l ++ [last] → last ∈ chain b := by
    intro l last shape
    simp [shape]
  apply buckets.replace
  · intro i t shape
    by_cases vacant : chain b = []
    · rw [vacant, List.nil_append] at shape
      obtain ⟨rfl, rfl⟩ := List.cons.inj shape
      exact ⟨first vacant, isHead, by simp⟩
    · obtain ⟨tail, hchain, -, tailOverflow⟩ := buckets.eq_cons vacant
      rw [hchain, List.cons_append] at shape
      obtain ⟨rfl, rfl⟩ := List.cons.inj shape
      refine ⟨rfl, isHead, ?_⟩
      intro j member
      rcases List.mem_append.mp member with old | new
      · exact tailOverflow j old
      · rw [List.mem_singleton.mp new]
        exact overflow vacant
  · rw [linked_append]
    refine ⟨?_, prevNew, nextNew, trivial⟩
    rcases List.eq_nil_or_concat' (chain b) with vacant | ⟨l, last, shape⟩
    · rw [vacant]
      trivial
    · have linked := buckets.linked b
      have distinct := buckets.nodup b
      have lastD : (chain b).getLastD nil = last := by simp [shape]
      rw [shape] at linked distinct ⊢
      apply linked.redirect
      · rw [← lastD]
        exact nextLast (by simp [shape])
      · intro i member
        refine nextOld i (buckets.occupied_of_mem (b := b) ?_) ?_
        · simp [shape, member]
        · rw [lastD]
          rintro rfl
          exact (List.nodup_append.mp distinct).2.2 i member i (by simp) rfl
      · intro i member
        exact prevOld i (buckets.occupied_of_mem (shape ▸ member))
  · exact List.nodup_append.mpr ⟨buckets.nodup b, List.nodup_singleton e, by
      intro i member j single same
      rw [List.mem_singleton.mp single] at same
      exact outside b (same ▸ member)⟩
  · intro member
    rcases List.mem_append.mp member with old | new
    · exact buckets.nil_not_mem b old
    · exact nonnil (List.mem_singleton.mp new).symm
  · intro i member
    rcases List.mem_append.mp member with old | new
    · exact Or.inl old
    · exact Or.inr (List.mem_singleton.mp new ▸ free)
  · intro c different i member
    refine ⟨nextOld i (buckets.occupied_of_mem member) ?_,
      prevOld i (buckets.occupied_of_mem member)⟩
    rintro rfl
    rcases List.eq_nil_or_concat' (chain b) with vacant | ⟨l, last, shape⟩
    · rw [vacant] at member
      exact buckets.nil_not_mem c member
    · have lastD : (chain b).getLastD nil = last := by simp [shape]
      rw [lastD] at member
      exact different
        (buckets.disjoint c b last member (lastMem l last shape))
  · intro i
    rw [occupancy i, List.mem_append, List.mem_singleton]
    constructor
    · rintro (busy | rfl)
      · by_cases inside : i ∈ chain b
        · exact Or.inl (Or.inl inside)
        · exact Or.inr ⟨busy, inside⟩
      · exact Or.inl (Or.inr rfl)
    · rintro ((inside | rfl) | ⟨busy, -⟩)
      · exact Or.inl (buckets.occupied_of_mem inside)
      · exact Or.inr rfl
      · exact Or.inl busy

/-- Unlinking one slot of a chain: an overflow slot, or a head slot that has
no followers. -/
theorem remove {b e : α} {l r : List α} (shape : chain b = l ++ e :: r)
    (removable : l ≠ [] ∨ r = [])
    (nextPred : l ≠ [] → next' (l.getLastD nil) = r.headD nil)
    (prevSucc : r ≠ [] → prev' (r.headD nil) = l.getLastD nil)
    (nextOld : ∀ i, occupied i → i ≠ e → i ≠ l.getLastD nil →
      next' i = next i)
    (prevOld : ∀ i, occupied i → i ≠ e → i ≠ r.headD nil → prev' i = prev i)
    (occupancy : ∀ i, occupied' i ↔ occupied i ∧ i ≠ e) :
    Buckets next' prev' nil occupied' head
      (Function.update chain b (l ++ r)) := by
  have linked := shape ▸ buckets.linked b
  have distinct : (l ++ e :: r).Nodup := shape ▸ buckets.nodup b
  obtain ⟨lNodup, erNodup, apart⟩ := List.nodup_append.mp distinct
  obtain ⟨eOutside, rNodup⟩ := List.nodup_cons.mp erNodup
  have inChain : ∀ i, i ∈ l ∨ i ∈ r → i ∈ chain b := by
    intro i member
    rw [shape]
    rcases member with left | right
    · exact List.mem_append_left _ left
    · exact List.mem_append_right _ (List.mem_cons_of_mem _ right)
  have ne_e : ∀ i, i ∈ l ∨ i ∈ r → i ≠ e := by
    rintro i (left | right) rfl
    · exact apart i left i List.mem_cons_self rfl
    · exact eOutside right
  have busy : ∀ i, i ∈ l ∨ i ∈ r → occupied i :=
    fun i member => buckets.occupied_of_mem (inChain i member)
  have predOutside : ∀ c, l.getLastD nil ∈ chain c → l ≠ [] ∧ c = b := by
    intro c member
    rcases List.eq_nil_or_concat' l with rfl | ⟨front, last, rfl⟩
    · exact absurd member (buckets.nil_not_mem c)
    · refine ⟨by simp, buckets.disjoint c b _ member (inChain _ (Or.inl ?_))⟩
      simp
  have succOutside : ∀ c, r.headD nil ∈ chain c → c = b := by
    intro c member
    cases r with
    | nil => exact absurd member (buckets.nil_not_mem c)
    | cons j t =>
      exact buckets.disjoint c b _ member
        (inChain _ (Or.inr List.mem_cons_self))
  apply buckets.replace
  · intro i t front
    cases l with
    | nil =>
      have last : r = [] := removable.resolve_left (fun h => h rfl)
      simp [last] at front
    | cons j l =>
      obtain ⟨rfl, rfl⟩ := List.cons.inj front
      obtain ⟨rfl, isHead, overflow⟩ := buckets.headed b _ _ shape
      refine ⟨rfl, isHead, fun k member => overflow k ?_⟩
      rcases List.mem_append.mp member with left | right
      · exact List.mem_append_left _ left
      · exact List.mem_append_right _ (List.mem_cons_of_mem _ right)
  · obtain ⟨front, -, -, back⟩ := (linked_append nil nil l (e :: r)).mp linked
    rw [linked_append]
    constructor
    · rcases List.eq_nil_or_concat' l with rfl | ⟨l, last, rfl⟩
      · trivial
      · apply front.redirect
        · simpa using nextPred (by simp)
        · intro i member
          have inside : i ∈ l ++ [last] ∨ i ∈ r := by simp [member]
          refine nextOld i (busy i inside) (ne_e i inside) ?_
          simp only [List.getLastD_concat]
          rintro rfl
          exact (List.nodup_append.mp lNodup).2.2 i member i (by simp) rfl
        · intro i member
          refine prevOld i (busy i (Or.inl member)) (ne_e i (Or.inl member)) ?_
          rintro rfl
          cases r with
          | nil =>
            exact buckets.nil_not_mem b (inChain nil (Or.inl member))
          | cons j t =>
            exact apart j member j (by simp) rfl
    · cases r with
      | nil => trivial
      | cons j t =>
        apply back.reenter
        · exact prevSucc (by simp)
        · intro i member
          refine nextOld i (busy i (Or.inr member)) (ne_e i (Or.inr member)) ?_
          rintro rfl
          rcases List.eq_nil_or_concat' l with rfl | ⟨l, last, rfl⟩
          · exact buckets.nil_not_mem b (inChain nil (Or.inr member))
          · simp only [List.getLastD_concat] at member
            exact apart last (by simp) last
              (List.mem_cons_of_mem _ member) rfl
        · intro i member
          have inside : i ∈ l ∨ i ∈ j :: t :=
            Or.inr (List.mem_cons_of_mem _ member)
          refine prevOld i (busy i inside) (ne_e i inside) ?_
          rintro rfl
          exact (List.nodup_cons.mp rNodup).1 member
  · exact List.nodup_append.mpr ⟨lNodup, rNodup, fun i left j right =>
      apart i left j (List.mem_cons_of_mem _ right)⟩
  · intro member
    exact buckets.nil_not_mem b (inChain nil (List.mem_append.mp member))
  · intro i member
    exact Or.inl (inChain i (List.mem_append.mp member))
  · intro c different i member
    have outside : i ∉ chain b :=
      fun inside => different (buckets.disjoint c b i member inside)
    have iBusy := buckets.occupied_of_mem member
    have distinctE : i ≠ e := by
      rintro rfl
      exact outside (by simp [shape])
    constructor
    · apply nextOld i iBusy distinctE
      rintro rfl
      exact different (predOutside c member).2
    · apply prevOld i iBusy distinctE
      rintro rfl
      exact different (succOutside c member)
  · intro i
    rw [occupancy i]
    have split : i ∈ chain b ↔ i ∈ l ++ r ∨ i = e := by
      rw [shape]
      simp only [List.mem_append, List.mem_cons]
      tauto
    constructor
    · rintro ⟨iBusy, distinctE⟩
      by_cases inside : i ∈ chain b
      · exact Or.inl ((split.mp inside).resolve_right distinctE)
      · exact Or.inr ⟨iBusy, inside⟩
    · rintro (member | ⟨iBusy, outside⟩)
      · have inside := List.mem_append.mp member
        exact ⟨busy i inside, ne_e i inside⟩
      · refine ⟨iBusy, ?_⟩
        rintro rfl
        exact outside (split.mpr (Or.inr rfl))

end Update

end Buckets

end VendorModules.Lib
