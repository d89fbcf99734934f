import Mathlib

namespace VendorModules.Lib

variable {α β γ : Type*}

/-- Goes over a list from position `i` on, with the best key so far and where it was met.
A contender takes over only when it is better. -/
def scan (better : β → β → Bool) (key : α → Option β) :
    List α → Nat → β × Option Nat → β × Option Nat
  | [], _, best => best
  | a :: as, i, best =>
    match key a with
    | none => scan better key as (i + 1) best
    | some b => scan better key as (i + 1) (if better b best.1 then (b, some i) else best)

/-- What stands at position `i` is better than all that stands before it, and nothing
behind it is better. -/
structure Foremost (better : β → β → Bool) (key : α → Option β) (as : List α) (i : Nat)
    (a : α) : Prop where
  here : as[i]? = some a
  stands : ∃ b, key a = some b
  unbeaten : ∀ b, key a = some b → ∀ (j : Nat) (a' : α) (b' : β),
    as[j]? = some a' → key a' = some b' → better b' b = false ∧ (j < i → better b b' = true)

section Append

variable (better : β → β → Bool) (key : α → Option β)

theorem scan_append (front back : List α) (i : Nat) (best : β × Option Nat) :
    scan better key (front ++ back) i best =
      scan better key back (i + front.length) (scan better key front i best) := by
  induction front generalizing i best with
  | nil => rfl
  | cons a front ih =>
    simp only [List.cons_append, scan, List.length_cons]
    cases key a <;> simp only [ih] <;> congr 1 <;> omega

end Append

section Ranked

variable [LinearOrder γ] {better : β → β → Bool} {key : α → Option β} {rank : β → γ}

/-- The scan of a prefix: the best key so far beats the sentinel exactly if someone holds
it, and the holder is foremost in the prefix. -/
structure Scanned (better : β → β → Bool) (key : α → Option β) (sentinel : β)
    (as : List α) (best : β × Option Nat) : Prop where
  empty : best.2 = none → best.1 = sentinel ∧
    ∀ a ∈ as, ∀ b, key a = some b → better b sentinel = false
  held : ∀ i, best.2 = some i →
    ∃ a, Foremost better key as i a ∧ key a = some best.1 ∧ better best.1 sentinel = true

theorem Scanned.nil (sentinel : β) : Scanned better key sentinel [] (sentinel, none) where
  empty _ := ⟨rfl, fun _ member => absurd member (by simp)⟩
  held i same := by simp at same

theorem Foremost.behind {as : List α} {i : Nat} {a : α} (foremost : Foremost better key as i a)
    {next : α} (beaten : ∀ b b', key a = some b → key next = some b' → better b' b = false) :
    Foremost better key (as ++ [next]) i a where
  here := by
    have inside := (List.getElem?_eq_some_iff.mp foremost.here).1
    rw [List.getElem?_append_left inside]
    exact foremost.here
  stands := foremost.stands
  unbeaten b same j a' b' there same' := by
    have inside := (List.getElem?_eq_some_iff.mp foremost.here).1
    by_cases before : j < as.length
    · rw [List.getElem?_append_left before] at there
      exact foremost.unbeaten b same j a' b' there same'
    · have last : j = as.length := by
        have := (List.getElem?_eq_some_iff.mp there).1
        simp at this
        omega
      subst last
      simp at there
      subst there
      exact ⟨beaten b b' same same', fun earlier => by omega⟩

theorem Foremost.last {as : List α} {a : α} {b : β} (stands : key a = some b)
    (itself : better b b = false)
    (ahead : ∀ a' ∈ as, ∀ b', key a' = some b' → better b b' = true ∧ better b' b = false) :
    Foremost better key (as ++ [a]) as.length a where
  here := by simp
  stands := ⟨b, stands⟩
  unbeaten b₁ same j a' b' there same' := by
    rw [stands, Option.some.injEq] at same
    subst same
    by_cases before : j < as.length
    · rw [List.getElem?_append_left before] at there
      have beaten := ahead a' (List.mem_of_getElem? there) b' same'
      exact ⟨beaten.2, fun _ => beaten.1⟩
    · have last : j = as.length := by
        have := (List.getElem?_eq_some_iff.mp there).1
        simp at this
        omega
      subst last
      simp at there
      subst there
      rw [stands, Option.some.injEq] at same'
      subst same'
      exact ⟨itself, fun earlier => by omega⟩

variable (ranked : ∀ b b', better b b' = true ↔ rank b < rank b')

include ranked

theorem ranked_false (b b' : β) : better b b' = false ↔ rank b' ≤ rank b := by
  rw [← not_lt, ← ranked, Bool.not_eq_true]

theorem Scanned.ahead {sentinel : β} {as : List α} {best : β × Option Nat}
    (scanned : Scanned better key sentinel as best) {b : β} (beats : better b best.1 = true)
    {a' : α} (member : a' ∈ as) {b' : β} (same : key a' = some b') :
    better b b' = true ∧ better b' b = false := by
  have below : rank best.1 ≤ rank b' := by
    rw [← ranked_false ranked]
    cases holder : best.2 with
    | none =>
      have empty := scanned.empty holder
      rw [empty.1]
      exact empty.2 a' member b' same
    | some i =>
      obtain ⟨old, foremost, key, -⟩ := scanned.held i holder
      obtain ⟨j, there⟩ := List.mem_iff_getElem?.mp member
      exact (foremost.unbeaten _ key j a' b' there same).1
  rw [ranked] at beats ⊢
  rw [ranked_false ranked]
  have strict := beats.trans_le below
  exact ⟨strict, strict.le⟩

theorem Scanned.next {sentinel : β} {as : List α} {best : β × Option Nat}
    (scanned : Scanned better key sentinel as best) (a : α) :
    Scanned better key sentinel (as ++ [a]) (scan better key [a] as.length best) := by
  cases stands : key a with
  | none =>
    simp only [scan, stands]
    refine ⟨fun none => ?_, fun i same => ?_⟩
    · refine ⟨(scanned.empty none).1, fun a' member b same => ?_⟩
      rcases List.mem_append.mp member with before | last
      · exact (scanned.empty none).2 a' before b same
      · rw [List.mem_singleton.mp last, stands] at same
        cases same
    · obtain ⟨holder, foremost, key, beats⟩ := scanned.held i same
      exact ⟨holder, foremost.behind fun _ _ _ there => by simp [stands] at there, key, beats⟩
  | some b =>
    simp only [scan, stands]
    by_cases beats : better b best.1 = true
    · -- the contender takes over
      rw [if_pos beats]
      refine ⟨fun none => by simp at none, fun i same => ?_⟩
      simp only [Option.some.injEq] at same
      subst same
      refine ⟨a, .last stands ((ranked_false ranked _ _).mpr le_rfl)
        (fun a' member b' same' => scanned.ahead ranked beats member same'), stands, ?_⟩
      cases holder : best.2 with
      | none => rwa [← (scanned.empty holder).1]
      | some i =>
        obtain ⟨old, -, -, old'⟩ := scanned.held i holder
        rw [ranked] at beats old' ⊢
        exact beats.trans old'
    · rw [if_neg beats]
      rw [Bool.not_eq_true] at beats
      refine ⟨fun none => ?_, fun i same => ?_⟩
      · refine ⟨(scanned.empty none).1, fun a' member b' same => ?_⟩
        rcases List.mem_append.mp member with before | last
        · exact (scanned.empty none).2 a' before b' same
        · rw [List.mem_singleton.mp last, stands, Option.some.injEq] at same
          rw [← same, ← (scanned.empty none).1]
          exact beats
      · obtain ⟨holder, foremost, key, old⟩ := scanned.held i same
        refine ⟨holder, foremost.behind fun b₁ b' same₁ there => ?_, key, old⟩
        rw [key, Option.some.injEq] at same₁
        rw [stands, Option.some.injEq] at there
        rw [← same₁, ← there]
        exact beats

theorem scanned (sentinel : β) (as : List α) :
    Scanned better key sentinel as (scan better key as 0 (sentinel, none)) := by
  induction as using List.reverseRecOn with
  | nil => exact .nil sentinel
  | append_singleton as a ih =>
    rw [scan_append, Nat.zero_add]
    exact ih.next ranked a

end Ranked

end VendorModules.Lib
