import VendorModules.Lib.Workers
import VendorModules.Smci.Server

/-! Who holds a transaction: each thread with a reference of its own, and the list. A call that
waits for its transaction relies on the reference of the list. -/

namespace VendorModules.Smci

open Function Lib

namespace Thread

def owner : Thread → Option Nat
  | waiting _ t | answered _ t | failing _ t _ => some t
  | _ => none

def loose : Thread → Option Nat
  | allocated _ t | dequeued _ t _ | notifying _ t _ | dropping t _ => some t
  | _ => none

def picker : Thread → Option Nat
  | picked t | withdrawing t _ => some t
  | _ => none

def holds (t : Nat) : Thread → Nat
  | allocated _ t' | dequeued _ t' _ | notifying _ t' _ | parsing t' _ | submitting t' _ _
  | settling t' _ _ _ | picked t' | withdrawing t' _ | putting t' _ => if t' = t then 1 else 0
  | dropping t' _ => if t' = t then 2 else 0
  | _ => 0

def stray : Thread → Bool
  | returned id _ => id = contextIdAny
  | _ => false

def keeps (thread : Thread) (t : Nat) : Prop :=
  thread.owner = some t ∨ ∃ id, thread = .returned id 0

variable {thread : Thread} {t : Nat} {id : ContextId}

theorem holds_of_loose (loose : thread.loose = some t) : 0 < thread.holds t := by
  cases thread <;> cases loose <;> simp [holds]

theorem holds_of_picker (picks : thread.picker = some t) : 0 < thread.holds t := by
  cases thread <;> cases picks <;> simp [holds]

theorem not_keeps (waits : thread.owner = none) (ongoing : ∀ id, thread ≠ .returned id 0) (t : Nat) :
    ¬thread.keeps t := by
  rintro (owns | ⟨id, is⟩)
  · rw [waits] at owns
    cases owns
  · exact ongoing id is

theorem serving_of_picker (picks : thread.picker = some t) : thread.serving = true := by
  cases thread <;> cases picks <;> rfl

theorem loose_of_holds (idle : thread.serving = false) (holds : 0 < thread.holds t) :
    thread.loose = some t := by
  have single : ∀ t', 0 < (if t' = t then 1 else 0) → some t' = some t := by
    intro t' positive
    split at positive
    · rename_i same
      rw [same]
    · cases positive
  cases thread with
  | allocated _ t' => exact single t' holds
  | dequeued _ t' _ => exact single t' holds
  | notifying _ t' _ => exact single t' holds
  | idle => exact absurd holds (Nat.lt_irrefl 0)
  | waiting => exact absurd holds (Nat.lt_irrefl 0)
  | answered => exact absurd holds (Nat.lt_irrefl 0)
  | failing => exact absurd holds (Nat.lt_irrefl 0)
  | returned => exact absurd holds (Nat.lt_irrefl 0)
  | _ => cases idle

theorem context_ne_any (calls : thread.context = some id) : id ≠ contextIdAny := by
  cases thread with
  | allocated | waiting | answered | failing | dequeued | returned | notifying =>
    simp only [context, Option.ite_none_left_eq_some, Option.some.injEq] at calls
    exact calls.2 ▸ calls.1
  | _ => cases calls

end Thread

namespace State

/-- `thread k` of `s` is at `a`. -/
def At (s : State) (k : Nat) (a : Thread) : Prop := s.threads[k]? = some a

def parties (s : State) (t : Nat) : Nat :=
  (s.threads.map (·.holds t)).sum + s.queue.count t

variable {s s' : State} {j k t : Nat} {a b thread : Thread}

theorem At.mem (here : s.At k a) : a ∈ s.threads := List.mem_of_getElem? here

theorem parties_of_mem (member : t ∈ s.queue) : 0 < s.parties t := by
  have := List.count_pos_iff.mpr member
  unfold parties
  omega

theorem holds_le_sum (member : thread ∈ s.threads) (t : Nat) :
    thread.holds t ≤ (s.threads.map (·.holds t)).sum :=
  le_sum_map member (·.holds t)

theorem parties_of_holds (member : thread ∈ s.threads) (holds : 0 < thread.holds t) :
    0 < s.parties t := by
  have := s.holds_le_sum member t
  unfold parties
  omega

theorem parties_set (here : s.At k a) (threads : s'.threads = s.threads.set k b)
    (queue : s'.queue = s.queue) (t : Nat) :
    s'.parties t + a.holds t = s.parties t + b.holds t := by
  have sum := sum_map_set_add (b := b) here (·.holds t)
  unfold parties
  rw [threads, queue]
  omega

theorem holds_add_le (here : s.At k a) (there : s.At j thread) (apart : j ≠ k) (t : Nat) :
    a.holds t + thread.holds t + s.queue.count t ≤ s.parties t := by
  have := add_le_sum_map here there apart (·.holds t)
  unfold parties
  omega

end State

end VendorModules.Smci
