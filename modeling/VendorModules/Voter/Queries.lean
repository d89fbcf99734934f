import VendorModules.Voter.Callback

namespace VendorModules.Voter

/-! Queries, and whether anything that comes later tells that they were made. -/

inductive Operation
  | move (move : Move)
  | isClientVoteEnabled (clientStr : String) (allocated : Bool)
  | getEffectiveResult
  | getEffectiveClient
  | getEffectiveResultExcludeClient (excludeStr : String)

inductive Answer
  | outcome (call : Option Call) (rc : Int32)
  | enabled (enabled : Bool)
  | result (value : Int32)
  | client (clientStr : Option String)
  deriving DecidableEq, Repr

namespace Votable

variable (cfg : Config) (votable : Votable)

/-- `is_client_vote_enabled_locked` -/
def isClientVoteEnabled (clientStr : String) (allocated : Bool) : Votable × Bool :=
  let found := (getClientId votable.clients clientStr allocated).2
  let votable := votable.addClient clientStr allocated
  match found with
  | .error _ => (votable, false)
  | .ok clientId =>
    (votable, ((votable.clients[clientId]?).map fun client => client.vote.enabled).getD false)

def perform : Operation → Option (Votable × Answer)
  | .move move =>
    (votable.operate cfg move).map fun outcome =>
      (outcome.votable, .outcome outcome.call outcome.rc)
  | .isClientVoteEnabled clientStr allocated =>
    let asked := votable.isClientVoteEnabled clientStr allocated
    some (asked.1, .enabled asked.2)
  | .getEffectiveResult => some (votable, .result votable.getEffectiveResult)
  | .getEffectiveClient => some (votable, .client votable.getEffectiveClient)
  | .getEffectiveResultExcludeClient excludeStr =>
    some (votable, .result (votable.getEffectiveResultExcludeClient cfg excludeStr))

/-- What is seen of one operation after the other. An override without a callback, which the
driver does not survive, is the last. -/
def answers : Votable → List Operation → List (Option Answer)
  | _, [] => []
  | votable, operation :: operations =>
    match votable.perform cfg operation with
    | none => [none]
    | some (after, answer) => some answer :: answers after operations

end Votable

def Operation.Quiet : Operation → Prop
  | .move (.vote _ _ _ _ _ checks _) => ∃ rc, runChecks checks 0 = .error rc
  | .move (.getClientVote _ _) => True
  | .move _ => False
  | _ => True

def Operation.lookup : Operation → Option (String × Bool)
  | .move (.vote clientStr _ _ _ allocated _ _) => some (clientStr, allocated)
  | .move (.getClientVote clientStr allocated) => some (clientStr, allocated)
  | .isClientVoteEnabled clientStr allocated => some (clientStr, allocated)
  | _ => none

def Operation.TakesSlot (operation : Operation) (votable : Votable) : Prop :=
  ∃ clientStr, operation.lookup = some (clientStr, true) ∧
    clientStr ∉ votable.clients.map Client.str ∧ votable.clients.length < NUM_MAX_CLIENTS

def Unnoticed (cfg : Config) (votable : Votable) (operation : Operation) : Prop :=
  ∀ after answer, votable.perform cfg operation = some (after, answer) →
    ∀ later, after.answers cfg later = votable.answers cfg later

variable {cfg : Config} {votable : Votable}

/-! ### What a quiet operation leaves -/

theorem addClient_of_mem {clientStr : String} (known : clientStr ∈ votable.clients.map Client.str)
    (allocated : Bool) : votable.addClient clientStr allocated = votable := by
  unfold Votable.addClient getClientId
  cases found : votable.clients.findIdx? fun client => client.str == clientStr with
  | some i => rfl
  | none =>
    obtain ⟨client, mem, rfl⟩ := List.mem_map.1 known
    have no := List.findIdx?_eq_none_iff.1 found client mem
    simp at no

theorem addClient_of_full (full : NUM_MAX_CLIENTS ≤ votable.clients.length) (clientStr : String)
    (allocated : Bool) : votable.addClient clientStr allocated = votable := by
  unfold Votable.addClient getClientId
  cases votable.clients.findIdx? fun client => client.str == clientStr with
  | some i => rfl
  | none =>
    dsimp only
    rw [if_neg (Nat.not_lt.2 full)]

theorem addClient_of_not_allocated (clientStr : String) :
    votable.addClient clientStr false = votable := by
  unfold Votable.addClient getClientId
  cases votable.clients.findIdx? fun client => client.str == clientStr with
  | some i => rfl
  | none =>
    dsimp only
    split <;> rfl

theorem addClient_of_fresh {clientStr : String}
    (fresh : clientStr ∉ votable.clients.map Client.str)
    (room : votable.clients.length < NUM_MAX_CLIENTS) :
    (votable.addClient clientStr true).clients =
      votable.clients ++ [⟨clientStr, ⟨false, 0⟩⟩] := by
  unfold Votable.addClient getClientId
  cases found : votable.clients.findIdx? fun client => client.str == clientStr with
  | some i =>
    obtain ⟨inside, same, -⟩ := List.findIdx?_eq_some_iff_getElem.1 found
    refine absurd (List.mem_map.2 ⟨_, List.getElem_mem inside, ?_⟩) fresh
    simpa using same
  | none =>
    dsimp only
    rw [if_pos room, if_pos rfl]

theorem addClient_eq_self {operation : Operation} (takes : ¬operation.TakesSlot votable)
    {clientStr : String} {allocated : Bool} (lookup : operation.lookup = some (clientStr, allocated)) :
    votable.addClient clientStr allocated = votable := by
  cases allocated with
  | false => exact addClient_of_not_allocated clientStr
  | true =>
    by_cases known : clientStr ∈ votable.clients.map Client.str
    · exact addClient_of_mem known true
    · refine addClient_of_full (Nat.not_lt.1 fun room => takes ?_) clientStr true
      exact ⟨clientStr, lookup, known, room⟩

theorem vote_of_rejected {checks : List Int32} {rejected : Int32}
    (rejects : runChecks checks 0 = .error rejected) (clientStr : String) (enabled : Bool)
    (val : Int32) (step : Bool) (allocated : Bool) (rc : Int32) :
    (votable.vote cfg clientStr enabled val step allocated checks rc).votable =
      votable.addClient clientStr allocated := by
  simp only [Votable.vote, rejects]
  generalize (if cfg.type = .voteSetAny then (if enabled then 1 else 0) else val) = val
  split
  · rfl
  · split <;> rfl

theorem getClientVote_votable (clientStr : String) (allocated : Bool) :
    (votable.getClientVote cfg clientStr allocated).votable =
      votable.addClient clientStr allocated := by
  unfold Votable.getClientVote
  dsimp only
  split
  · rfl
  · split <;> rfl

theorem isClientVoteEnabled_votable (clientStr : String) (allocated : Bool) :
    (votable.isClientVoteEnabled clientStr allocated).1 =
      votable.addClient clientStr allocated := by
  unfold Votable.isClientVoteEnabled
  dsimp only
  split <;> rfl

theorem perform_of_quiet {operation : Operation} (quiet : operation.Quiet) :
    ∃ answer, votable.perform cfg operation =
      some ((operation.lookup.map fun asked => votable.addClient asked.1 asked.2).getD votable,
        answer) := by
  cases operation with
  | move move =>
    cases move with
    | vote clientStr enabled val step allocated checks rc =>
      obtain ⟨rejected, rejects⟩ := quiet
      refine ⟨_, congrArg some (Prod.ext ?_ rfl)⟩
      exact vote_of_rejected rejects clientStr enabled val step allocated rc
    | getClientVote clientStr allocated =>
      exact ⟨_, congrArg some (Prod.ext (getClientVote_votable clientStr allocated) rfl)⟩
    | voteOverride | rerunElection | forceActiveWrite | forceValWrite => exact quiet.elim
  | isClientVoteEnabled clientStr allocated =>
    exact ⟨_, congrArg some (Prod.ext (isClientVoteEnabled_votable clientStr allocated) rfl)⟩
  | getEffectiveResult => exact ⟨_, rfl⟩
  | getEffectiveClient => exact ⟨_, rfl⟩
  | getEffectiveResultExcludeClient excludeStr => exact ⟨_, rfl⟩

theorem unnoticed_of_not_takesSlot {operation : Operation} (quiet : operation.Quiet)
    (takes : ¬operation.TakesSlot votable) : Unnoticed cfg votable operation := by
  intro after answer performed later
  obtain ⟨answer', same⟩ := @perform_of_quiet cfg votable operation quiet
  rw [same, Option.some.injEq, Prod.mk.injEq] at performed
  have kept : after = votable := by
    rw [← performed.1]
    cases lookup : operation.lookup with
    | none => rfl
    | some asked => exact addClient_eq_self takes lookup
  rw [kept]

/-! ### Votes that use up the slots -/

def plainVote (clientStr : String) : Operation :=
  .move (.vote clientStr true 0 false true [] 0)

def lastRc (answers : List (Option Answer)) : Option Int32 :=
  answers.getLast?.join.bind fun
    | .outcome _ rc => some rc
    | _ => none

theorem settle_rc (elected : Int32 × Option Nat) (step : Bool) :
    (votable.settle cfg elected step 0 0).rc = 0 := by
  unfold Votable.settle
  split_ifs <;> rfl

theorem map_str_storeVote (clientId : Nat) (vote : ClientVote) :
    (votable.storeVote clientId vote).clients.map Client.str =
      votable.clients.map Client.str := by
  apply List.ext_getElem?
  intro i
  rw [Votable.storeVote, List.getElem?_map, List.getElem?_map, List.getElem?_modify]
  cases votable.clients[i]? with
  | none => rfl
  | some client =>
    split
    · rfl
    · rfl

theorem getClientId_of_fresh {clientStr : String}
    (fresh : clientStr ∉ votable.clients.map Client.str) :
    (getClientId votable.clients clientStr true).2 =
      if votable.clients.length < NUM_MAX_CLIENTS then .ok votable.clients.length
      else .error (-EINVAL) := by
  unfold getClientId
  cases found : votable.clients.findIdx? fun client => client.str == clientStr with
  | some i =>
    obtain ⟨inside, same, -⟩ := List.findIdx?_eq_some_iff_getElem.1 found
    refine absurd (List.mem_map.2 ⟨_, List.getElem_mem inside, ?_⟩) fresh
    simpa using same
  | none =>
    dsimp only
    split <;> rfl

theorem perform_plainVote {clientStr : String}
    (fresh : clientStr ∉ votable.clients.map Client.str) :
    ∃ after call, votable.perform cfg (plainVote clientStr) =
        some (after, .outcome call
          (if votable.clients.length < NUM_MAX_CLIENTS then 0 else -EINVAL)) ∧
      after.clients.map Client.str =
        if votable.clients.length < NUM_MAX_CLIENTS then
          votable.clients.map Client.str ++ [clientStr]
        else votable.clients.map Client.str := by
  have slot := getClientId_of_fresh fresh
  by_cases room : votable.clients.length < NUM_MAX_CLIENTS
  · have added := addClient_of_fresh fresh room
    rw [if_pos room] at slot
    simp only [if_pos room]
    have new : (votable.addClient clientStr true).clients[votable.clients.length]? =
        some ⟨clientStr, ⟨false, 0⟩⟩ := by
      rw [added, List.getElem?_concat_length]
    simp only [Votable.perform, plainVote, Votable.operate, Votable.vote, slot, new,
      Option.map_some, runChecks]
    generalize (if cfg.type = .voteSetAny then (if True then (1 : Int32) else 0) else 0) = val
    have other : (some (ClientVote.mk false 0) == some ⟨true, val⟩) = false := by
      rw [beq_eq_false_iff_ne]
      simp
    rw [other, Bool.false_and, if_neg Bool.false_ne_true]
    rw [settle_rc]
    refine ⟨_, _, rfl, ?_⟩
    rw [settle_clients, map_str_storeVote, added, List.map_append]
    rfl
  · have kept := addClient_of_full (Nat.not_lt.1 room) clientStr true
    rw [if_neg room] at slot
    simp only [if_neg room]
    refine ⟨votable, none, ?_, rfl⟩
    simp only [Votable.perform, plainVote, Votable.operate, Votable.vote, slot, kept,
      Option.map_some]

theorem lastRc_answers_cons {operation next : Operation} {later : List Operation}
    {after : Votable} {answer : Answer}
    (performed : votable.perform cfg operation = some (after, answer)) :
    lastRc (votable.answers cfg (operation :: next :: later)) =
      lastRc (after.answers cfg (next :: later)) := by
  have first : votable.answers cfg (operation :: next :: later) =
      some answer :: after.answers cfg (next :: later) := by
    rw [Votable.answers, performed]
  rw [first, Votable.answers]
  cases after.perform cfg next with
  | none => rfl
  | some result => rfl

theorem lastRc_plainVotes (clientStr : String) (others : List String)
    (fresh : ∀ c ∈ clientStr :: others, c ∉ votable.clients.map Client.str)
    (nodup : (clientStr :: others).Nodup) (size : votable.clients.length ≤ NUM_MAX_CLIENTS) :
    lastRc (votable.answers cfg ((clientStr :: others).map plainVote)) =
      some (if votable.clients.length + others.length < NUM_MAX_CLIENTS then 0 else -EINVAL) := by
  induction others generalizing votable clientStr with
  | nil =>
    obtain ⟨after, call, performed, -⟩ :=
      @perform_plainVote cfg votable clientStr (fresh _ List.mem_cons_self)
    simp only [List.map_cons, List.map_nil, Votable.answers, performed]
    rfl
  | cons next others ih =>
    obtain ⟨after, call, performed, names⟩ :=
      @perform_plainVote cfg votable clientStr (fresh _ List.mem_cons_self)
    rw [List.map_cons, List.map_cons, lastRc_answers_cons performed, ← List.map_cons]
    have length : after.clients.length =
        if votable.clients.length < NUM_MAX_CLIENTS then votable.clients.length + 1
        else votable.clients.length := by
      rw [← List.length_map Client.str, names]
      split <;> simp
    rw [ih next ?_ nodup.of_cons ?_, length, List.length_cons]
    · congr 1
      split_ifs <;> first | rfl | omega
    · intro c mem known
      have before := fresh c (List.mem_cons_of_mem _ mem)
      rw [names] at known
      split at known
      · rcases List.mem_append.1 known with known | same
        · exact before known
        · rw [List.nodup_cons] at nodup
          exact nodup.1 (List.mem_singleton.1 same ▸ mem)
      · exact before known
    · rw [length]
      split <;> omega

theorem exists_fresh (known : List String) (count : Nat) :
    ∃ names : List String, names.length = count ∧ names.Nodup ∧ ∀ c ∈ names, c ∉ known := by
  obtain ⟨bound, above⟩ : ∃ bound, ∀ c ∈ known, c.length < bound := by
    induction known with
    | nil => exact ⟨0, fun c none => nomatch none⟩
    | cons c known ih =>
      obtain ⟨bound, above⟩ := ih
      refine ⟨max bound (c.length + 1), fun d mem => ?_⟩
      rcases List.mem_cons.1 mem with rfl | mem
      · exact Nat.lt_of_lt_of_le (Nat.lt_succ_self _) (Nat.le_max_right _ _)
      · exact Nat.lt_of_lt_of_le (above d mem) (Nat.le_max_left _ _)
  let name : Nat → String := fun i => String.ofList (List.replicate (bound + i) 'a')
  have length : ∀ i, (name i).length = bound + i := fun i => by simp [name]
  refine ⟨(List.range count).map name, by simp, ?_, fun c mem old => ?_⟩
  · refine List.pairwise_map.2 (List.nodup_range.imp fun different same => different ?_)
    have := congrArg String.length same
    rw [length, length] at this
    omega
  · obtain ⟨i, -, rfl⟩ := List.mem_map.1 mem
    have := above _ old
    rw [length] at this
    omega

theorem noticed_of_takesSlot {operation : Operation} (quiet : operation.Quiet)
    (takes : operation.TakesSlot votable) : ¬Unnoticed cfg votable operation := by
  intro unnoticed
  obtain ⟨clientStr, lookup, new, room⟩ := takes
  obtain ⟨answer, performed⟩ := @perform_of_quiet cfg votable operation quiet
  rw [lookup, Option.map_some, Option.getD_some] at performed
  have added := addClient_of_fresh new room
  obtain ⟨names, count, nodup, fresh⟩ := exists_fresh
    (clientStr :: votable.clients.map Client.str) (NUM_MAX_CLIENTS - votable.clients.length)
  cases names with
  | nil =>
    rw [List.length_nil] at count
    omega
  | cons first others =>
    rw [List.length_cons] at count
    have same := congrArg lastRc (unnoticed _ _ performed ((first :: others).map plainVote))
    have without : lastRc (votable.answers cfg ((first :: others).map plainVote)) = some 0 := by
      rw [lastRc_plainVotes first others ?_ nodup (Nat.le_of_lt room), if_pos (by omega)]
      intro c mem old
      exact fresh c mem (List.mem_cons_of_mem _ old)
    have after : lastRc ((votable.addClient clientStr true).answers cfg
        ((first :: others).map plainVote)) = some (-EINVAL) := by
      rw [lastRc_plainVotes first others ?_ nodup ?_, added, List.length_append,
        List.length_singleton, if_neg (by omega)]
      · intro c mem old
        rw [added, List.map_append, List.mem_append] at old
        rcases old with old | same
        · exact fresh c mem (List.mem_cons_of_mem _ old)
        · exact fresh c mem (List.mem_singleton.1 same ▸ List.mem_cons_self)
      · rw [added, List.length_append]
        exact room
    rw [after, without] at same
    exact absurd same (by decide)

/-- Queries and rejected votes go unnoticed exactly if they give no client a slot. -/
theorem unnoticed_iff {operation : Operation} (quiet : operation.Quiet) :
    Unnoticed cfg votable operation ↔ ¬operation.TakesSlot votable :=
  ⟨fun unnoticed takes => noticed_of_takesSlot quiet takes unnoticed,
    unnoticed_of_not_takesSlot quiet⟩

/-- A name that `create` does not know, but that cannot be copied. -/
theorem isClientVoteEnabled_unnoticed :
    Operation.Quiet (.isClientVoteEnabled "USER_VOTER" false) ∧
      Unnoticed ⟨.voteMin, [], true⟩ (.create ⟨.voteMin, [], true⟩)
        (.isClientVoteEnabled "USER_VOTER" false) :=
  ⟨trivial, (@unnoticed_iff _ _ (.isClientVoteEnabled "USER_VOTER" false) trivial).2
    fun ⟨_, lookup, _⟩ => by simp [Operation.lookup] at lookup⟩

/-- Asking for an unknown client's vote is noticed once the other slots are taken. -/
theorem isClientVoteEnabled_noticed :
    ¬∀ (cfg : Config) (votable : Votable) (operation : Operation), operation.Quiet →
      Unnoticed cfg votable operation := by
  intro unnoticed
  apply noticed_of_takesSlot _ _ (unnoticed ⟨.voteMin, [], true⟩ (.create ⟨.voteMin, [], true⟩)
    (.isClientVoteEnabled "USER_VOTER" true) trivial)
  · exact trivial
  · exact ⟨"USER_VOTER", rfl, List.not_mem_nil, by decide⟩

end VendorModules.Voter
