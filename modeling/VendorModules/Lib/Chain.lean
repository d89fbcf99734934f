import Mathlib.Data.List.Nodup
import Mathlib.Data.Finset.Card

namespace VendorModules.Lib

/-! Links from place to place. Following them from a place either comes to an end, or leaves
what can be read, or goes round for ever. -/

variable {α : Type*}

/-- The places that are passed from one on to the end. -/
inductive Chain (next : α → Option (Option α)) : α → List α → Prop
  | last {a : α} (ends : next a = some none) : Chain next a [a]
  | step {a b : α} {path : List α} (linked : next a = some (some b))
      (rest : Chain next b path) : Chain next a (a :: path)

/-- Passes at most so many places. -/
def follow (next : α → Option (Option α)) : Nat → α → Option (List α)
  | 0, _ => none
  | limit + 1, a =>
    match next a with
    | none => none
    | some none => some [a]
    | some (some b) => (follow next limit b).map (a :: ·)

variable {next : α → Option (Option α)} {a b : α} {path path' : List α}

namespace Chain

theorem unique (chain : Chain next a path) (chain' : Chain next a path') : path = path' := by
  induction chain generalizing path' with
  | last ends =>
    cases chain' with
    | last => rfl
    | step linked => rw [ends] at linked; cases linked
  | step linked _ ih =>
    cases chain' with
    | last ends => rw [linked] at ends; cases ends
    | step linked' rest' =>
      rw [linked] at linked'
      cases linked'
      rw [ih rest']

theorem head_mem (chain : Chain next a path) : a ∈ path := by
  cases chain with
  | last => exact List.mem_singleton_self a
  | step => exact List.mem_cons_self

theorem ne_nil (chain : Chain next a path) : path ≠ [] :=
  List.ne_nil_of_mem chain.head_mem

theorem readable (chain : Chain next a path) : ∀ b ∈ path, (next b).isSome := by
  induction chain with
  | last ends => simp [ends]
  | step linked _ ih =>
    intro b passed
    rcases List.mem_cons.mp passed with rfl | later
    · simp [linked]
    · exact ih b later

theorem suffix (chain : Chain next a path) (passed : b ∈ path) :
    ∃ path', Chain next b path' ∧ path' <:+ path := by
  induction chain with
  | last ends =>
    rw [List.mem_singleton] at passed
    subst passed
    exact ⟨_, .last ends, List.suffix_refl _⟩
  | step linked rest ih =>
    rcases List.mem_cons.mp passed with rfl | later
    · exact ⟨_, .step linked rest, List.suffix_refl _⟩
    · obtain ⟨path', chain', within⟩ := ih later
      exact ⟨path', chain', within.trans (List.suffix_cons _ _)⟩

theorem nodup (chain : Chain next a path) : path.Nodup := by
  induction chain with
  | last => exact List.nodup_singleton _
  | step linked rest ih =>
    apply List.nodup_cons.mpr
    constructor
    · intro again
      obtain ⟨path', chain', within⟩ := rest.suffix again
      have same := chain'.unique (.step linked rest)
      have shorter := within.length_le
      rw [same, List.length_cons] at shorter
      omega
    · exact ih

theorem length_le {count : Nat} (rank : α → Nat) (injective : Function.Injective rank)
    (bounded : ∀ a, (next a).isSome → rank a < count) (chain : Chain next a path) :
    path.length ≤ count := by
  have ranks : (path.map rank).Nodup := chain.nodup.map injective
  have within : path.map rank ⊆ List.range count := by
    intro place named
    obtain ⟨b, passed, rfl⟩ := List.mem_map.mp named
    exact List.mem_range.mpr (bounded b (chain.readable b passed))
  simpa using (ranks.subperm within).length_le

end Chain

theorem chain_of_follow {limit : Nat} (found : follow next limit a = some path) :
    Chain next a path := by
  induction limit generalizing a path with
  | zero => cases found
  | succ limit ih =>
    rw [follow] at found
    split at found
    · cases found
    · rename_i ends
      cases found
      exact .last ends
    · rename_i b linked
      obtain ⟨rest, followed, rfl⟩ := Option.map_eq_some_iff.mp found
      exact .step linked (ih followed)

theorem follow_of_chain (chain : Chain next a path) {limit : Nat} (enough : path.length ≤ limit) :
    follow next limit a = some path := by
  induction chain generalizing limit with
  | last ends =>
    cases limit with
    | zero => cases enough
    | succ limit => simp [follow, ends]
  | step linked _ ih =>
    cases limit with
    | zero => cases enough
    | succ limit => simp [follow, linked, ih (Nat.le_of_succ_le_succ enough)]

theorem follow_eq_some_iff {count : Nat} (rank : α → Nat) (injective : Function.Injective rank)
    (bounded : ∀ a, (next a).isSome → rank a < count) :
    follow next count a = some path ↔ Chain next a path :=
  ⟨chain_of_follow, fun chain =>
    follow_of_chain chain (chain.length_le rank injective bounded)⟩

end VendorModules.Lib
