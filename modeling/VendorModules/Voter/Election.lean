import Mathlib.Data.Int.Order.Basic
import VendorModules.Voter.Votable

namespace VendorModules.Voter

open Lib

def mappedVal (cfg : Config) (client : Client) : Int32 :=
  (voteGetMappedVal cfg client.vote.value).getD client.vote.value

def AtLeastAsGood : VotableType → Int32 → Int32 → Prop
  | .voteMax, val, other => other.toInt ≤ val.toInt
  | _, val, other => val.toInt ≤ other.toInt

/-- The client in slot `i` is enabled, no enabled client has a better mapped value, and of
those with the same it is the first. -/
structure Wins (cfg : Config) (clients : List Client) (i : Nat) (client : Client) : Prop where
  here : clients[i]? = some client
  enabled : client.vote.enabled = true
  best : ∀ (j : Nat) (other : Client), clients[j]? = some other →
    other.vote.enabled = true →
    AtLeastAsGood cfg.type (mappedVal cfg client) (mappedVal cfg other) ∧
      (mappedVal cfg other = mappedVal cfg client → i ≤ j)

def NoneEnabled (clients : List Client) : Prop :=
  ∀ client ∈ clients, client.vote.enabled = false

/-- What an election over the votes comes to: for a set-any votable the disjunction of the
enabled flags, for the others the value of the winner. -/
def Elected (cfg : Config) (clients : List Client) (result : Int32)
    (effective : Option Nat) : Prop :=
  match cfg.type, effective with
  | .voteSetAny, _ => result = if clients.any fun client => client.vote.enabled then 1 else 0
  | _, none => NoneEnabled clients ∧ result = -EINVAL
  | _, some i => ∃ client, Wins cfg clients i client ∧ result = client.vote.value

/-- Someone enabled has a mapped value other than the one elections start from, unless no
one is enabled at all. -/
def Distinguished (cfg : Config) (clients : List Client) : Prop :=
  cfg.type ≠ .voteSetAny →
    NoneEnabled clients ∨
      ∃ client ∈ clients, client.vote.enabled = true ∧ mappedVal cfg client ≠ sentinel cfg.type

variable {cfg : Config}

section Scans

theorem standing_eq_some {client : Client} {val : Int32} :
    standing cfg none client = some val ↔
      client.vote.enabled = true ∧ mappedVal cfg client = val := by
  cases enabled : client.vote.enabled <;>
    simp [standing, isClientExcluded, mappedVal, enabled]

def rank : VotableType → Int32 → Int
  | .voteMax, val => -val.toInt
  | _, val => val.toInt

theorem takesOver_iff (type : VotableType) (val res : Int32) :
    takesOver type val res = true ↔ rank type val < rank type res := by
  cases type <;> simp [takesOver, rank, Int32.lt_iff_toInt_lt]

theorem atLeastAsGood_iff (type : VotableType) (val other : Int32) :
    AtLeastAsGood type val other ↔ rank type val ≤ rank type other := by
  cases type <;> simp [AtLeastAsGood, rank]

theorem rank_injective (type : VotableType) : Function.Injective (rank type) := by
  intro val other same
  apply Int32.toInt_inj.mp
  cases type <;> simpa [rank] using same

theorem rank_le_sentinel (type : VotableType) (val : Int32) :
    rank type val ≤ rank type (sentinel type) := by
  cases type with
  | voteMax =>
    have := val.minValue_le_toInt
    simp only [rank, sentinel]
    omega
  | voteMin | voteSetAny => exact val.toInt_le

theorem takesOver_sentinel {type : VotableType} {val : Int32} :
    takesOver type val (sentinel type) = false ↔ val = sentinel type := by
  rw [ranked_false (takesOver_iff type)]
  constructor
  · intro least
    exact rank_injective type (le_antisymm (rank_le_sentinel type val) least)
  · intro same
    rw [same]

theorem Wins.of_foremost {clients : List Client} {i : Nat} {client : Client}
    (foremost : Foremost (takesOver cfg.type) (standing cfg none) clients i client) :
    Wins cfg clients i client := by
  obtain ⟨val, stands⟩ := foremost.stands
  obtain ⟨enabled, mapped⟩ := standing_eq_some.mp stands
  refine ⟨foremost.here, enabled, fun j other there enabled' => ?_⟩
  have unbeaten := foremost.unbeaten val stands j other _ there
    (standing_eq_some.mpr ⟨enabled', rfl⟩)
  subst mapped
  refine ⟨?_, fun tie => ?_⟩
  · rw [atLeastAsGood_iff]
    exact (ranked_false (takesOver_iff cfg.type) _ _).mp unbeaten.1
  · by_contra later
    have strict := unbeaten.2 (by omega)
    rw [takesOver_iff, tie] at strict
    exact lt_irrefl _ strict

end Scans

section Extremes

abbrev ballot (cfg : Config) (clients : List Client) : Int32 × Option Nat :=
  scan (takesOver cfg.type) (standing cfg none) clients 0 (sentinel cfg.type, none)

theorem ballot_scanned (clients : List Client) :
    Scanned (takesOver cfg.type) (standing cfg none) (sentinel cfg.type) clients
      (ballot cfg clients) :=
  scanned (takesOver_iff cfg.type) _ clients

theorem elect_eq (extreme : cfg.type ≠ .voteSetAny) (clients : List Client) (clientId : Nat) :
    elect cfg clients clientId none =
      (resultOf clients (ballot cfg clients).2, (ballot cfg clients).2) := by
  cases type : cfg.type with
  | voteSetAny => exact absurd type extreme
  | voteMin | voteMax => simp only [elect, type, voteMin, voteMax, voteExtreme, ballot]

theorem resultOf_of_wins {clients : List Client} {i : Nat} {client : Client}
    (wins : Wins cfg clients i client) : resultOf clients (some i) = client.vote.value := by
  simp [resultOf, wins.here]

theorem ballot_eq_none {clients : List Client} :
    (ballot cfg clients).2 = none ↔
      ∀ client ∈ clients, client.vote.enabled = true →
        mappedVal cfg client = sentinel cfg.type := by
  constructor
  · intro none client member enabled
    exact takesOver_sentinel.mp
      (((ballot_scanned clients).empty none).2 client member _
        (standing_eq_some.mpr ⟨enabled, rfl⟩))
  · intro all
    cases holder : (ballot cfg clients).2 with
    | none => rfl
    | some i =>
      obtain ⟨client, foremost, key, beats⟩ := (ballot_scanned clients).held i holder
      obtain ⟨enabled, mapped⟩ := standing_eq_some.mp key
      have := all client (List.mem_of_getElem? foremost.here) enabled
      rw [mapped] at this
      rw [takesOver_sentinel.mpr this] at beats
      cases beats

theorem elected_none {clients : List Client} {result : Int32}
    (extreme : cfg.type ≠ .voteSetAny) :
    Elected cfg clients result none ↔ NoneEnabled clients ∧ result = -EINVAL := by
  cases type : cfg.type with
  | voteSetAny => exact absurd type extreme
  | voteMin | voteMax => simp only [Elected, type]

theorem elected_some {clients : List Client} {result : Int32} {i : Nat}
    (extreme : cfg.type ≠ .voteSetAny) :
    Elected cfg clients result (some i) ↔
      ∃ client, Wins cfg clients i client ∧ result = client.vote.value := by
  cases type : cfg.type with
  | voteSetAny => exact absurd type extreme
  | voteMin | voteMax => simp only [Elected, type]

theorem elect_elected_iff (extreme : cfg.type ≠ .voteSetAny) (clients : List Client) :
    Elected cfg clients (resultOf clients (ballot cfg clients).2) (ballot cfg clients).2 ↔
      Distinguished cfg clients := by
  cases holder : (ballot cfg clients).2 with
  | none =>
    rw [elected_none extreme]
    have all := ballot_eq_none.mp holder
    constructor
    · exact fun elected _ => .inl elected.1
    · intro distinguished
      refine ⟨?_, rfl⟩
      rcases distinguished extreme with noneEnabled | ⟨client, member, enabled, differs⟩
      · exact noneEnabled
      · exact absurd (all client member enabled) differs
  | some i =>
    rw [elected_some extreme]
    obtain ⟨client, foremost, key, beats⟩ := (ballot_scanned clients).held i holder
    have wins := Wins.of_foremost foremost
    refine ⟨fun _ _ => .inr ⟨client, List.mem_of_getElem? foremost.here, wins.enabled, ?_⟩,
      fun _ => ⟨client, wins, resultOf_of_wins wins⟩⟩
    obtain ⟨-, mapped⟩ := standing_eq_some.mp key
    intro same
    rw [← mapped, takesOver_sentinel.mpr same] at beats
    cases beats

end Extremes

section SetAny

@[simp] theorem isClientExcluded_none (clientStr : String) :
    isClientExcluded clientStr none = false := rfl

theorem foldl_or_enabled (clients : List Client) (res : Int32) (bit : res = 0 ∨ res = 1) :
    clients.foldl (fun res client =>
        if isClientExcluded client.str none then res
        else res ||| (if client.vote.enabled then 1 else 0)) res =
      if clients.any fun client => client.vote.enabled then 1 else res := by
  induction clients generalizing res with
  | nil => simp
  | cons client clients ih =>
    rw [List.foldl_cons, List.any_cons, isClientExcluded_none, if_neg Bool.false_ne_true]
    cases enabled : client.vote.enabled with
    | false =>
      rw [if_neg Bool.false_ne_true, Int32.or_zero, ih res bit, Bool.false_or]
    | true =>
      have one : res ||| 1 = 1 := by rcases bit with rfl | rfl <;> rfl
      rw [if_pos rfl, one, ih 1 (.inr rfl)]
      simp

theorem voteSetAny_result (clients : List Client) (clientId : Nat) :
    (voteSetAny clients clientId none).1 =
      if clients.any fun client => client.vote.enabled then 1 else 0 :=
  foldl_or_enabled clients 0 (.inl rfl)

end SetAny

structure Stored (cfg : Config) (votable : Votable) : Prop where
  result : votable.effectiveResult = (elect cfg votable.clients 0 none).1
  client : cfg.type ≠ .voteSetAny →
    votable.effectiveClientId = (elect cfg votable.clients 0 none).2

theorem Stored.elected_iff {votable : Votable} (stored : Stored cfg votable) :
    Elected cfg votable.clients votable.effectiveResult votable.effectiveClientId ↔
      Distinguished cfg votable.clients := by
  by_cases type : cfg.type = .voteSetAny
  · have result : votable.effectiveResult =
        if votable.clients.any fun client => client.vote.enabled then 1 else 0 := by
      rw [stored.result, elect, type]
      exact voteSetAny_result _ _
    simp [Elected, Distinguished, type, result]
  · rw [stored.result, stored.client type, elect_eq type]
    exact elect_elected_iff type votable.clients

theorem elect_result (clients : List Client) (clientId clientId' : Nat) :
    (elect cfg clients clientId none).1 = (elect cfg clients clientId' none).1 := by
  cases type : cfg.type <;> simp [elect, type, voteSetAny]

theorem elect_append_disabled (clients : List Client) (clientStr : String) (clientId : Nat) :
    elect cfg (clients ++ [⟨clientStr, ⟨false, 0⟩⟩]) clientId none =
      elect cfg clients clientId none := by
  by_cases type : cfg.type = .voteSetAny
  · simp [elect, type, voteSetAny, isClientExcluded]
  · have same : ballot cfg (clients ++ [⟨clientStr, ⟨false, 0⟩⟩]) = ballot cfg clients := by
      rw [ballot, scan_append]
      simp [scan, standing, isClientExcluded]
    rw [elect_eq type, elect_eq type, same]
    cases holder : (ballot cfg clients).2 with
    | none => rfl
    | some i =>
      obtain ⟨client, foremost, -⟩ := (ballot_scanned clients).held i holder
      have inside := (List.getElem?_eq_some_iff.mp foremost.here).1
      simp only [resultOf, List.getElem?_append_left inside]

theorem elect_getClientId (clients : List Client) (clientStr : String) (allocated : Bool)
    (clientId : Nat) :
    elect cfg (getClientId clients clientStr allocated).1 clientId none =
      elect cfg clients clientId none := by
  unfold getClientId
  split
  · rfl
  · split_ifs
    · exact elect_append_disabled clients clientStr clientId
    · rfl
    · rfl

theorem Stored.addClient {votable : Votable} (stored : Stored cfg votable)
    (clientStr : String) (allocated : Bool) :
    Stored cfg (votable.addClient clientStr allocated) where
  result := by
    rw [Votable.addClient, elect_getClientId]
    exact stored.result
  client extreme := by
    rw [Votable.addClient, elect_getClientId]
    exact stored.client extreme

theorem Stored.of_same {votable votable' : Votable} (stored : Stored cfg votable)
    (clients : votable'.clients = votable.clients)
    (result : votable'.effectiveResult = votable.effectiveResult)
    (client : votable'.effectiveClientId = votable.effectiveClientId) :
    Stored cfg votable' where
  result := by rw [result, clients]; exact stored.result
  client extreme := by rw [client, clients]; exact stored.client extreme

section Settle

variable (votable : Votable) (elected : Int32 × Option Nat) (step : Bool) (checked rc : Int32)

@[simp] theorem settle_clients :
    (votable.settle cfg elected step checked rc).votable.clients = votable.clients := by
  unfold Votable.settle
  split_ifs <;> rfl

@[simp] theorem settle_effectiveResult :
    (votable.settle cfg elected step checked rc).votable.effectiveResult = elected.1 := by
  unfold Votable.settle
  split_ifs with changed shadowed
  · rfl
  · rfl
  · simp at changed
    exact changed.2.symm
  · simp at changed
    exact changed.2.symm

@[simp] theorem settle_effectiveClientId :
    (votable.settle cfg elected step checked rc).votable.effectiveClientId = elected.2 := by
  unfold Votable.settle
  split_ifs with changed shadowed moved
  · rfl
  · rfl
  · rfl
  · simp at moved
    exact moved.symm

end Settle

theorem stored_settle (votable : Votable) (clientId : Nat) (step : Bool)
    (checked rc : Int32) :
    Stored cfg (votable.settle cfg (elect cfg votable.clients clientId none) step
      checked rc).votable where
  result := by
    rw [settle_effectiveResult, settle_clients]
    exact elect_result _ _ _
  client extreme := by
    rw [settle_effectiveClientId, settle_clients, elect_eq extreme, elect_eq extreme]

theorem Stored.vote {votable : Votable} (stored : Stored cfg votable) (clientStr : String)
    (enabled : Bool) (val : Int32) (step allocated : Bool) (checks : List Int32) (rc : Int32) :
    Stored cfg (votable.vote cfg clientStr enabled val step allocated checks rc).votable := by
  rcases votable.vote_cases cfg clientStr enabled val step allocated checks rc with
    ⟨rc', ignored⟩ | ⟨clientId, vote, checked, -, held⟩
  · rw [ignored]
    exact stored.addClient clientStr allocated
  · rw [held]
    exact stored_settle _ _ step _ rc

theorem Stored.operate {votable : Votable} (stored : Stored cfg votable) {move : Move}
    {outcome : Outcome} (taken : votable.operate cfg move = some outcome) :
    Stored cfg outcome.votable := by
  cases move with
  | vote clientStr enabled val step allocated checks rc =>
    simp only [Votable.operate, Option.some.injEq] at taken
    subst taken
    exact stored.vote ..
  | voteOverride overrideClient enabled val step rc =>
    simp only [Votable.operate, Votable.voteOverride] at taken
    split_ifs at taken <;> cases taken <;> exact stored.of_same rfl rfl rfl
  | rerunElection step rc =>
    simp only [Votable.operate, Votable.rerunElection, Option.some.injEq] at taken
    subst taken
    split_ifs <;> exact stored
  | forceActiveWrite val rc =>
    simp only [Votable.operate, Votable.forceActiveWrite, Option.some.injEq] at taken
    subst taken
    split_ifs <;> exact stored.of_same rfl rfl rfl
  | forceValWrite val =>
    simp only [Votable.operate, Votable.forceValWrite, Option.some.injEq] at taken
    subst taken
    exact stored.of_same rfl rfl rfl
  | getClientVote clientStr allocated =>
    have added := stored.addClient clientStr allocated
    simp only [Votable.operate, Votable.getClientVote, Option.some.injEq] at taken
    subst taken
    split
    · exact added
    · split <;> exact added

theorem Stored.create : Stored cfg (Votable.create cfg) where
  result := by
    cases type : cfg.type <;>
      simp [Votable.create, type, elect, voteMin, voteMax, voteSetAny, voteExtreme, scan, resultOf]
  client extreme := by
    rw [elect_eq extreme]
    rfl

theorem stored_of_reachable {served : Served}
    (reached : Reachable (· = .initial cfg) (StepOf (Served.step cfg) fun _ _ => True) served) :
    Stored cfg served.votable := by
  induction reached with
  | start initial =>
    subst initial
    exact .create
  | next _ taken ih =>
    obtain ⟨move, -, stepped⟩ := taken
    simp only [Served.step, Option.map_eq_some_iff] at stepped
    obtain ⟨outcome, operated, rfl⟩ := stepped
    exact ih.operate operated

/-- In every reachable state the stored result and client are those of the election over
the votes exactly if someone stands out against the value elections start from. -/
theorem elected_iff_distinguished {served : Served}
    (reached : Reachable (· = .initial cfg) (StepOf (Served.step cfg) fun _ _ => True) served) :
    Elected cfg served.votable.clients served.votable.effectiveResult
        served.votable.effectiveClientId ↔
      Distinguished cfg served.votable.clients :=
  (stored_of_reachable reached).elected_iff

section Sample

abbrev sampleConfig : Config where
  type := .voteMin
  hashTable := []
  callback := true

abbrev greatestVote : List Move := [.vote "USER_VOTER" true Int32.maxValue false true [] 0]

abbrev commonVote : List Move := [.vote "USER_VOTER" true 500 false true [] 0]

theorem commonVote_elected :
    Elected sampleConfig [⟨"USER_VOTER", ⟨true, 500⟩⟩] 500 (some 0) ↔
      Distinguished sampleConfig [⟨"USER_VOTER", ⟨true, 500⟩⟩] := by
  have start : Reachable (· = .initial sampleConfig)
      (StepOf (Served.step sampleConfig) fun _ _ => True) (.initial sampleConfig) := .start rfl
  exact elected_iff_distinguished (play_reachable start
    (show (play (Served.step sampleConfig) (fun _ _ => True) (.initial sampleConfig)
      commonVote).isSome by decide))

/-- The one enabled client has the least value, and is not elected. -/
theorem greatestVote_not_elected :
    ∃ served, Reachable (· = .initial sampleConfig)
        (StepOf (Served.step sampleConfig) fun _ _ => True) served ∧
      served.votable.clients = [⟨"USER_VOTER", ⟨true, Int32.maxValue⟩⟩] ∧
      served.votable.effectiveClientId = none ∧
      ¬ Elected sampleConfig served.votable.clients served.votable.effectiveResult
        served.votable.effectiveClientId := by
  have start : Reachable (· = .initial sampleConfig)
      (StepOf (Served.step sampleConfig) fun _ _ => True) (.initial sampleConfig) := .start rfl
  have reached := play_reachable start
    (show (play (Served.step sampleConfig) (fun _ _ => True) (.initial sampleConfig)
      greatestVote).isSome by decide)
  refine ⟨_, reached, by decide, by decide, fun elected => ?_⟩
  exact absurd (((elected_none (by decide)).mp elected).1 ⟨"USER_VOTER", ⟨true, Int32.maxValue⟩⟩
    (by decide)) (by decide)

end Sample

end VendorModules.Voter
