import VendorModules.Lib.Scan
import VendorModules.Lib.Transition

namespace VendorModules.Voter

open Lib

def NUM_MAX_CLIENTS : Nat := 32

def DEBUG_FORCE_CLIENT : String := "DEBUG_FORCE_CLIENT"

def EINVAL : Int32 := 22

def ENOMEM : Int32 := 12

inductive VotableType
  | voteMin
  | voteMax
  | voteSetAny
  deriving DecidableEq, Repr

structure ClientVote where
  enabled : Bool
  value : Int32
  deriving DecidableEq, Repr

/-- A slot of `client_strs` that is in use, with its vote. -/
structure Client where
  str : String
  vote : ClientVote
  deriving DecidableEq, Repr

structure VoteValMap where
  original : Int32
  mapped : Int32

structure Config where
  type : VotableType
  hashTable : List VoteValMap
  callback : Bool

/-- No effective client is the id `-EINVAL`. -/
structure Votable where
  overrideClient : Option String
  clients : List Client
  effectiveClientId : Option Nat
  effectiveResult : Int32
  overrideResult : Int32
  votedOn : Bool
  forceVal : UInt32
  forceActive : Bool
  deriving DecidableEq, Repr

def voteGetMappedVal (cfg : Config) (original : Int32) : Option Int32 :=
  (cfg.hashTable.find? fun tmp => tmp.original == original).map VoteValMap.mapped

def isClientExcluded (clientStr : String) (excludeStr : Option String) : Bool :=
  excludeStr == some clientStr

def standing (cfg : Config) (excludeStr : Option String) (client : Client) : Option Int32 :=
  if isClientExcluded client.str excludeStr then none
  else if client.vote.enabled then
    some ((voteGetMappedVal cfg client.vote.value).getD client.vote.value)
  else none

def resultOf (clients : List Client) : Option Nat → Int32
  | none => -EINVAL
  | some i => ((clients[i]?).map fun client => client.vote.value).getD (-EINVAL)

def voteSetAny (clients : List Client) (clientId : Nat) (excludeStr : Option String) :
    Int32 × Option Nat :=
  (clients.foldl (fun res client =>
    if isClientExcluded client.str excludeStr then res
    else res ||| (if client.vote.enabled then 1 else 0)) 0, some clientId)

def takesOver : VotableType → Int32 → Int32 → Bool
  | .voteMax, val, res => decide (res < val)
  | _, val, res => decide (res > val)

def sentinel : VotableType → Int32
  | .voteMax => Int32.minValue
  | _ => Int32.maxValue

/-- The loop that `vote_min` and `vote_max` share, up to the comparison and the value they
start from. -/
def voteExtreme (cfg : Config) (type : VotableType) (clients : List Client)
    (excludeStr : Option String) : Int32 × Option Nat :=
  let effId := (scan (takesOver type) (standing cfg excludeStr) clients 0
    (sentinel type, none)).2
  (resultOf clients effId, effId)

def voteMin (cfg : Config) (clients : List Client) (excludeStr : Option String) :
    Int32 × Option Nat :=
  voteExtreme cfg .voteMin clients excludeStr

def voteMax (cfg : Config) (clients : List Client) (excludeStr : Option String) :
    Int32 × Option Nat :=
  voteExtreme cfg .voteMax clients excludeStr

def elect (cfg : Config) (clients : List Client) (clientId : Nat)
    (excludeStr : Option String) : Int32 × Option Nat :=
  match cfg.type with
  | .voteMin => voteMin cfg clients excludeStr
  | .voteMax => voteMax cfg clients excludeStr
  | .voteSetAny => voteSetAny clients clientId excludeStr

/-- The slot of a client, which is given the first free one if it has none. The copy of its
name may not be allocated. -/
def getClientId (clients : List Client) (clientStr : String) (allocated : Bool) :
    List Client × Except Int32 Nat :=
  match clients.findIdx? fun client => client.str == clientStr with
  | some i => (clients, .ok i)
  | none =>
    if clients.length < NUM_MAX_CLIENTS then
      if allocated then
        (clients ++ [⟨clientStr, ⟨false, 0⟩⟩], .ok clients.length)
      else (clients, .error (-ENOMEM))
    else (clients, .error (-EINVAL))

theorem getClientId_lt (clients : List Client) (clientStr : String) (allocated : Bool) :
    ∀ {clientId : Nat}, (getClientId clients clientStr allocated).2 = .ok clientId →
      clientId < (getClientId clients clientStr allocated).1.length := by
  intro clientId found
  unfold getClientId at found ⊢
  split at found
  · rename_i i index
    cases found
    exact (List.findIdx?_eq_some_iff_getElem.mp index).1
  · split_ifs at found ⊢
    cases found
    simp

namespace Votable

variable (cfg : Config) (votable : Votable)

def getClientStr (clientId : Option Nat) : Option String :=
  clientId.bind fun i => (votable.clients[i]?).map Client.str

/-- `get_effective_result_locked` -/
def getEffectiveResult : Int32 :=
  if votable.forceActive then votable.forceVal.toInt32
  else if votable.overrideResult != -EINVAL then votable.overrideResult
  else votable.effectiveResult

/-- `get_effective_client_locked` -/
def getEffectiveClient : Option String :=
  if votable.forceActive then some DEBUG_FORCE_CLIENT
  else if votable.overrideResult != -EINVAL then votable.overrideClient
  else votable.getClientStr votable.effectiveClientId

/-- `get_effective_result_exclude_client_locked` -/
def getEffectiveResultExcludeClient (excludeStr : String) : Int32 :=
  if votable.forceActive then votable.forceVal.toInt32
  else if votable.overrideResult != -EINVAL then votable.overrideResult
  else (elect cfg votable.clients 0 (some excludeStr)).1

/-- A votable as `create_votable` leaves it. -/
def create : Votable where
  overrideClient := none
  clients := []
  effectiveClientId := none
  effectiveResult := if cfg.type = .voteSetAny then 0 else -EINVAL
  overrideResult := -EINVAL
  votedOn := false
  forceVal := 0
  forceActive := false

end Votable

structure Call where
  effectiveResult : Int32
  effectiveClient : Option String
  step : Bool
  deriving DecidableEq, Repr

structure Outcome where
  votable : Votable
  call : Option Call
  rc : Int32
  deriving DecidableEq, Repr

def runChecks : List Int32 → Int32 → Except Int32 Int32
  | [], rc => .ok rc
  | rc :: checks, _ => if rc < 0 then .error rc else runChecks checks rc

/-- An operation on a votable, with what its environment answers: whether a name could be
copied, what the check functions and the callback return. -/
inductive Move
  | vote (clientStr : String) (enabled : Bool) (val : Int32) (step : Bool)
      (allocated : Bool) (checks : List Int32) (rc : Int32)
  | voteOverride (overrideClient : String) (enabled : Bool) (val : Int32) (step : Bool)
      (rc : Int32)
  | rerunElection (step : Bool) (rc : Int32)
  | forceActiveWrite (val : UInt32) (rc : Int32)
  | forceValWrite (val : UInt32)
  /-- `is_client_vote_enabled` or `get_client_vote` -/
  | getClientVote (clientStr : String) (allocated : Bool)
  deriving DecidableEq, Repr

namespace Votable

variable (cfg : Config) (votable : Votable)

/-- The end of `vote`, once the vote of a client is stored and the election is held. -/
def settle (elected : Int32 × Option Nat) (step : Bool) (checked rc : Int32) : Outcome :=
  if !votable.votedOn || elected.1 != votable.effectiveResult then
    let settled := { votable with
      effectiveClientId := elected.2
      effectiveResult := elected.1
      votedOn := true }
    if cfg.callback && !votable.forceActive && votable.overrideResult == -EINVAL then
      { votable := settled
        call := some ⟨elected.1, votable.getClientStr elected.2, step⟩
        rc := rc }
    else { votable := settled, call := none, rc := checked }
  else if elected.2 != votable.effectiveClientId then
    { votable := { votable with effectiveClientId := elected.2, votedOn := true }
      call := none
      rc := checked }
  else { votable := { votable with votedOn := true }, call := none, rc := checked }

/-- `votable->votes[client_id]` is written. -/
def storeVote (clientId : Nat) (vote : ClientVote) : Votable :=
  { votable with clients := votable.clients.modify clientId fun client => { client with vote } }

def addClient (clientStr : String) (allocated : Bool) : Votable :=
  { votable with clients := (getClientId votable.clients clientStr allocated).1 }

def vote (clientStr : String) (enabled : Bool) (val : Int32) (step : Bool)
    (allocated : Bool) (checks : List Int32) (rc : Int32) : Outcome :=
  let found := (getClientId votable.clients clientStr allocated).2
  let votable := votable.addClient clientStr allocated
  match found with
  | .error rc => { votable := votable, call := none, rc := rc }
  | .ok clientId =>
    let val := if cfg.type = .voteSetAny then (if enabled then 1 else 0) else val
    let similarVote :=
      ((votable.clients[clientId]?).map Client.vote) == some ⟨enabled, val⟩
    if similarVote && votable.votedOn then { votable := votable, call := none, rc := 0 }
    else
      match runChecks checks 0 with
      | .error rc => { votable := votable, call := none, rc := rc }
      | .ok checked =>
        let votable := votable.storeVote clientId ⟨enabled, val⟩
        votable.settle cfg (elect cfg votable.clients clientId none) step checked rc

theorem vote_cases (clientStr : String) (enabled : Bool) (val : Int32) (step : Bool)
    (allocated : Bool) (checks : List Int32) (rc : Int32) :
    (∃ rc', votable.vote cfg clientStr enabled val step allocated checks rc =
      { votable := votable.addClient clientStr allocated, call := none, rc := rc' }) ∨
    ∃ clientId vote checked,
      clientId < (votable.addClient clientStr allocated).clients.length ∧
      votable.vote cfg clientStr enabled val step allocated checks rc =
        ((votable.addClient clientStr allocated).storeVote clientId vote).settle cfg
          (elect cfg ((votable.addClient clientStr allocated).storeVote clientId vote).clients
            clientId none) step checked rc := by
  simp only [vote]
  have inside := @getClientId_lt votable.clients clientStr allocated
  generalize (if cfg.type = .voteSetAny then (if enabled then 1 else 0) else val) = val
  split
  · exact .inl ⟨_, rfl⟩
  · split
    · exact .inl ⟨_, rfl⟩
    · split
      · exact .inl ⟨_, rfl⟩
      · exact .inr ⟨_, _, _, inside ‹_›, rfl⟩

def voteOverride (overrideClient : String) (enabled : Bool) (val : Int32) (step : Bool)
    (rc : Int32) : Option Outcome :=
  if votable.forceActive then
    some
      { votable := { votable with overrideResult := if enabled then val else -EINVAL }
        call := none
        rc := 0 }
  else if !cfg.callback then none
  else if enabled then
    some
      { votable := if rc = 0 then
            { votable with overrideClient := some overrideClient, overrideResult := val }
          else votable
        call := some ⟨val, some overrideClient, step⟩
        rc := rc }
  else
    some
      { votable := { votable with overrideResult := -EINVAL }
        call := some
          ⟨votable.effectiveResult, votable.getClientStr votable.effectiveClientId, step⟩
        rc := rc }

def rerunElection (step : Bool) (rc : Int32) : Outcome :=
  if !cfg.callback then { votable := votable, call := none, rc := 0 }
  else if votable.forceActive then
    { votable := votable
      call := some ⟨votable.forceVal.toInt32, some DEBUG_FORCE_CLIENT, false⟩
      rc := rc }
  else
    { votable := votable
      call := some ⟨votable.getEffectiveResult,
        votable.getClientStr votable.effectiveClientId, step⟩
      rc := rc }

/-- `votable_force_active_write`, past the parsing. Its `rc` is that of the callback. -/
def forceActiveWrite (val : UInt32) (rc : Int32) : Outcome :=
  let votable := { votable with forceActive := val != 0 }
  if !cfg.callback then { votable := votable, call := none, rc := 0 }
  else if votable.forceActive then
    { votable := votable
      call := some ⟨votable.forceVal.toInt32, some DEBUG_FORCE_CLIENT, false⟩
      rc := rc }
  else if votable.overrideResult != -EINVAL then
    { votable := votable
      call := some ⟨votable.overrideResult, votable.overrideClient, false⟩
      rc := rc }
  else
    { votable := votable
      call := some
        ⟨votable.effectiveResult, votable.getClientStr votable.effectiveClientId, false⟩
      rc := rc }

/-- `votable_force_val_write`, past the parsing. -/
def forceValWrite (val : UInt32) : Outcome :=
  { votable := { votable with forceVal := val }, call := none, rc := 0 }

/-- `get_client_vote_locked` -/
def getClientVote (clientStr : String) (allocated : Bool) : Outcome :=
  let found := (getClientId votable.clients clientStr allocated).2
  let votable := votable.addClient clientStr allocated
  match found with
  | .error _ => { votable := votable, call := none, rc := -EINVAL }
  | .ok clientId =>
    match votable.clients[clientId]? with
    | none => { votable := votable, call := none, rc := -EINVAL }
    | some client =>
      { votable := votable
        call := none
        rc := if cfg.type ≠ .voteSetAny ∧ !client.vote.enabled then -EINVAL
          else client.vote.value }

def operate : Move → Option Outcome
  | .vote clientStr enabled val step allocated checks rc =>
    some (votable.vote cfg clientStr enabled val step allocated checks rc)
  | .voteOverride overrideClient enabled val step rc =>
    votable.voteOverride cfg overrideClient enabled val step rc
  | .rerunElection step rc => some (votable.rerunElection cfg step rc)
  | .forceActiveWrite val rc => some (votable.forceActiveWrite cfg val rc)
  | .forceValWrite val => some (votable.forceValWrite val)
  | .getClientVote clientStr allocated => some (votable.getClientVote cfg clientStr allocated)

end Votable

structure Served where
  votable : Votable
  lastCall : Option Call
  deriving DecidableEq, Repr

namespace Served

variable (cfg : Config)

def initial : Served where
  votable := .create cfg
  lastCall := none

def step (served : Served) (move : Move) : Option Served :=
  (served.votable.operate cfg move).map fun outcome =>
    { votable := outcome.votable, lastCall := outcome.call.or served.lastCall }

end Served

end VendorModules.Voter
